import Kobox.Gpu.Completion

/-!
# The images of completions

The attachment and mapping codecs pass a status other than OK to the inline codec: `Delegating`
says what such a kind of completion has to provide for the status OK.
-/

namespace Kobox.Gpu
open ByteMemory Protocol List

def countImage (frame : Frame) : List Store :=
  [⟨56, storeU32 (.ofNat frame.argumentCount)⟩, .zeros 60 4,
    ⟨64, storeU32 (.ofNat frame.attachmentCount)⟩, ⟨68, storeU32 (.ofNat frame.inlineLength)⟩]

def headerImage (frame : Frame) (sessionId : UInt64) (status : UInt32) : List Store :=
  identityStores frame.size sessionId status ++ countImage frame ++
    (offsetStores frame.tableOffset frame.inlineOffset ++
      [.zeros 88 4, .zeros 92 4, .zeros 96 8])

theorem fills_header {frame : Frame} {counts : List Store}
    (h : Fills counts (countImage frame) 56 72) (sessionId : UInt64) (status : UInt32) :
    Fills (identityStores frame.size sessionId status ++ counts ++
      offsetStores frame.tableOffset frame.inlineOffset) (headerImage frame sessionId status) 0
      completionHeaderSize := by
  have hidentity : Fills (identityStores frame.size sessionId status)
      (identityStores frame.size sessionId status) 0 56 :=
    .cons 4 rfl <| .cons 4 rfl <| .cons 32 rfl <| .cons 8 rfl <| .cons 4 rfl <| .cons 4 rfl <|
      .nil _
  have hoffsets : Fills (offsetStores frame.tableOffset frame.inlineOffset)
      (offsetStores frame.tableOffset frame.inlineOffset ++ [.zeros 88 4, .zeros 92 4, .zeros 96 8])
      72 completionHeaderSize :=
    .cons 4 rfl <| .cons 4 rfl <| .cons 4 rfl <| .cons 4 rfl <| .skip <| .skip <| .skip <| .nil _
  exact (hidentity.append h).append hoffsets

/-- The words of a frame are not truncated. -/
structure Frame.Fits (frame : Frame) : Prop where
  size : frame.size < 2 ^ 32
  argumentCount : frame.argumentCount < 2 ^ 32
  attachmentCount : frame.attachmentCount < 2 ^ 32
  inlineLength : frame.inlineLength < 2 ^ 32
  tableOffset : frame.tableOffset < 2 ^ 32
  inlineOffset : frame.inlineOffset < 2 ^ 32

variable {memory : Memory}

theorem held_headerImage {frame : Frame} {sessionId : UInt64} {status : UInt32} (h : frame.Fits) :
    Held memory (headerImage frame sessionId status) ↔
      identityMatches memory = true ∧ loadU64 memory 40 = sessionId ∧
        loadU32 memory 48 = status ∧ frameMatches memory frame = true := by
  rw [identityMatches_iff]
  simp only [headerImage, identityStores, countImage, offsetStores, cons_append,
    nil_append, held_cons, held_nil, holds_storeU32_iff, holds_storeU64_iff,
    holds_zeros_iff32, holds_zeros_iff64, and_true, frameMatches, Bool.and_eq_true, beq_iff_eq,
    eq_ofNat_iff h.size, eq_ofNat_iff h.argumentCount, eq_ofNat_iff h.attachmentCount,
    eq_ofNat_iff h.inlineLength, eq_ofNat_iff h.tableOffset, eq_ofNat_iff h.inlineOffset,
    eq_ofNat_iff (show completionHeaderSize < 2 ^ 32 by decide)]
  tauto

theorem frameMatches_counts {frame : Frame} (h : frameMatches memory frame = true) :
    (loadU32 memory 56).toNat = frame.argumentCount ∧
      (loadU32 memory 64).toNat = frame.attachmentCount ∧
      (loadU32 memory 68).toNat = frame.inlineLength := by
  simp only [frameMatches, Bool.and_eq_true, beq_iff_eq, and_assoc] at h
  exact ⟨h.2.2.1, h.2.2.2.2.1, h.2.2.2.2.2.1⟩

theorem argumentMatches_iff {record : ℕ} {argument : Argument} :
    argumentMatches memory record argument = true ↔
      Held memory (argumentImage record argument) := by
  rw [argumentMatches, Bool.and_eq_true, beq_iff_eq, beq_iff_eq, held_argumentImage]

theorem attachmentMatches_iff {record : ℕ} {attachment : Attachment} :
    attachmentMatches memory record attachment = true ↔
      Held memory (attachmentImage record attachment) := by
  rw [attachmentMatches, Bool.and_eq_true, beq_iff_eq, beq_iff_eq, held_attachmentImage]

theorem emit_eq_ok {α : Type} {f : Format α} {x : α} {buffer result : List UInt8} {size : ℕ} :
    emit buffer (f.size x) (f.stores x) = .ok (result, size) ↔
      size = f.size x ∧ size ≤ buffer.length ∧ result = f.emit buffer x := by
  unfold emit
  split_ifs with hroom
  · simp only [false_iff]
    rintro ⟨rfl, hsize, -⟩
    omega
  · simp only [Except.ok.injEq, Prod.mk.injEq]
    constructor
    · rintro ⟨rfl, rfl⟩
      exact ⟨rfl, Nat.le_of_not_lt hroom, rfl⟩
    · rintro ⟨rfl, -, rfl⟩
      exact ⟨rfl, rfl⟩

namespace InlineCompletion

theorem frame_fits {length : ℕ} (h : length ≤ maxInlineBytes) : (frame length).Fits := by
  have : length ≤ 4096 := h
  have hoffset : (frame length).inlineOffset ≤ 136 := by
    dsimp only [frame, completionHeaderSize, argumentDescriptorSize]
    split_ifs <;> decide
  have hcount : (frame length).argumentCount ≤ 1 := by
    dsimp only [frame]
    split_ifs <;> decide
  have hsize : (frame length).size = (frame length).inlineOffset + length := rfl
  have htable : (frame length).tableOffset = (frame length).inlineOffset := rfl
  exact ⟨by omega, by omega, Nat.two_pow_pos 32, lt_of_le_of_lt h (by decide), by omega, by omega⟩

def image (completion : InlineCompletion) : List Store :=
  headerImage (frame completion.data.length) completion.sessionId completion.status ++
    if completion.data.length ≠ 0 then
      argumentImage 104 ⟨1, argumentInline, flagOutput, completion.recordSchemaId, 0,
        .ofNat completion.data.length⟩ ++ [⟨136, completion.data⟩]
    else []

theorem fills (completion : InlineCompletion) :
    Fills completion.stores completion.image 0 (frame completion.data.length).size := by
  have hcounts : Fills [⟨56, storeU32 (.ofNat (frame completion.data.length).argumentCount)⟩,
      ⟨68, storeU32 (.ofNat (frame completion.data.length).inlineLength)⟩]
      (countImage (frame completion.data.length)) 56 72 :=
    .cons 4 rfl <| .skip <| .blank 4 storeU32_zero <| .cons 4 rfl <| .nil _
  refine (fills_header hcounts completion.sessionId completion.status).append ?_
  by_cases hdata : completion.data.length = 0
  · rw [if_neg (not_not.mpr hdata), if_neg (not_not.mpr hdata), frame, if_neg (not_not.mpr hdata),
      hdata]
    exact .nil _
  · rw [if_pos hdata, if_pos hdata, frame, if_pos hdata]
    exact .cons 4 rfl <| .cons 4 rfl <| .cons 4 rfl <| .cons 4 rfl <| .blank 8 storeU64_zero <|
      .cons 4 rfl <| .skip <| .cons completion.data.length rfl <| .nil _

def format : Format InlineCompletion where
  size completion := (frame completion.data.length).size
  stores := stores
  image := image
  fills := fills

section Codec
variable {completion : InlineCompletion} {memory : Memory} {bytes buffer result : List UInt8}
  {session : UInt64} {size : ℕ}

theorem valid_iff :
    completion.valid = true ↔
      completion.sessionId ≠ 0 ∧ completion.status ≤ statusDeviceLost ∧
        completion.data.length ≤ maxInlineBytes ∧
        (completion.data.length ≠ 0 ↔ completion.recordSchemaId ≠ 0) ∧
        (completion.status = statusOk ∨ completion.data.length = 0) := by
  have hschema : (if completion.data.length ≠ 0 then completion.recordSchemaId != 0
      else completion.recordSchemaId == 0) = true ↔
      (completion.data.length ≠ 0 ↔ completion.recordSchemaId ≠ 0) := by
    split_ifs with hdata
    · simp [hdata]
    · simp [not_not.mp hdata]
  simp only [valid, Bool.and_eq_true, Bool.or_eq_true, hschema, bne_iff_ne, decide_eq_true_eq,
    beq_iff_eq, and_assoc]

theorem held_image (h : completion.data.length ≤ maxInlineBytes) :
    Held memory completion.image ↔
      (identityMatches memory = true ∧ loadU64 memory 40 = completion.sessionId ∧
        loadU32 memory 48 = completion.status ∧
        frameMatches memory (frame completion.data.length) = true) ∧
      (completion.data.length ≠ 0 →
        argumentMatches memory 104 ⟨1, argumentInline, flagOutput, completion.recordSchemaId, 0,
          .ofNat completion.data.length⟩ = true ∧ Holds memory 136 completion.data) := by
  rw [image, held_append, held_headerImage (frame_fits h), argumentMatches_iff]
  refine and_congr_right fun _ => ?_
  split_ifs with hdata
  · rw [held_append, held_cons, and_iff_left (held_nil memory)]
    exact ⟨fun hheld _ => hheld, fun hheld => hheld hdata⟩
  · exact ⟨fun _ hne => absurd hne hdata, fun _ => held_nil memory⟩

theorem fields_of_held (h : completion.valid = true) (hheld : Held memory completion.image) :
    fields memory = completion := by
  obtain ⟨-, -, hlength, hschema, -⟩ := valid_iff.mp h
  obtain ⟨⟨-, hsession, hstatus, hmatches⟩, hargument⟩ := (held_image hlength).mp hheld
  have hcount := (frameMatches_counts hmatches).2.2
  obtain ⟨sessionId, status, recordSchemaId, data⟩ := completion
  change (loadU32 memory 68).toNat = data.length at hcount
  rw [fields, hcount, hsession, hstatus, InlineCompletion.mk.injEq]
  refine ⟨rfl, rfl, ?_⟩
  by_cases hdata : data.length = 0
  · have hrecord : recordSchemaId = 0 := not_not.mp fun hne => hschema.mpr hne hdata
    rw [if_neg (not_not.mpr hdata), hrecord, hdata, length_eq_zero_iff.mp hdata]
    exact ⟨rfl, rfl⟩
  · obtain ⟨hmatches, hholds⟩ := hargument hdata
    rw [argumentMatches_iff, held_argumentImage, decodeArgument, Argument.mk.injEq] at hmatches
    rw [if_pos hdata, frame, if_pos hdata]
    exact ⟨hmatches.1.2.2.2.1, hholds⟩

theorem decode_eq_ok :
    decode session bytes = .ok completion ↔
      (completion.valid = true ∧ session = completion.sessionId) ∧
        format.Represents bytes completion := by
  constructor
  · intro h
    unfold decode at h
    dsimp only at h
    split_ifs at h with hsession hsize hidentity hframe hargument hvalid
    obtain rfl := Except.ok.inj h
    simp only [not_or, not_and, not_not, Nat.not_lt, Bool.not_eq_false] at hidentity hframe hargument
    obtain ⟨hlength, hsame, hsize, hmatches⟩ := hframe
    have hcount : (fields (ofList bytes)).data.length = (loadU32 (ofList bytes) 68).toNat :=
      read_length _ _ _
    rw [← hcount] at hlength hsize hmatches
    refine ⟨⟨hvalid, hsame.symm⟩, hsize, (held_image hlength).mpr ?_⟩
    refine ⟨⟨hidentity, rfl, rfl, hmatches⟩, fun hdata => ?_⟩
    rw [hcount] at hdata
    have hrecord : (fields (ofList bytes)).recordSchemaId = loadU32 (ofList bytes) 116 := if_pos hdata
    have hoffset : (frame (loadU32 (ofList bytes) 68).toNat).inlineOffset = 136 := by
      rw [frame, if_pos hdata]
      rfl
    rw [hcount, hrecord, UInt32.ofNat_toNat, Holds, hcount]
    refine ⟨hargument hdata, ?_⟩
    rw [fields, hoffset]
  · rintro ⟨⟨hvalid, rfl⟩, hsize, hheld⟩
    obtain ⟨hsession, -, hlength, -, -⟩ := valid_iff.mp hvalid
    obtain ⟨⟨hidentity, hsame, -, hmatches⟩, hargument⟩ := (held_image hlength).mp hheld
    have hcount : (loadU32 (ofList bytes) 68).toNat = completion.data.length :=
      (frameMatches_counts hmatches).2.2
    have hfields := fields_of_held hvalid hheld
    have hrecord : completion.data.length ≠ 0 →
        loadU32 (ofList bytes) 116 = completion.recordSchemaId := by
      intro hdata
      rw [← hfields, fields, if_pos (hcount ▸ hdata)]
    have hheader : ¬bytes.length < completionHeaderSize := by
      rw [Nat.not_lt, hsize]
      exact Nat.le_add_right_of_le (Nat.le_add_right _ _)
    unfold decode
    dsimp only
    rw [hcount, hfields, if_neg hsession, if_neg hheader, hidentity, if_neg (by decide), if_neg,
      if_neg, if_pos hvalid]
    · rintro ⟨hdata, hmismatch⟩
      rw [hrecord hdata, ← UInt32.ofNat_toNat (x := loadU32 (ofList bytes) 68), hcount,
        (hargument hdata).1] at hmismatch
      cases hmismatch
    · simp only [not_or, not_not, Nat.not_lt, Bool.not_eq_false]
      exact ⟨hlength, hsame, hsize, hmatches⟩

theorem codec :
    Codec format (·.valid = true) (fun session completion => session = completion.sessionId) encode
      decode where
  encode_iff buffer completion result size := by
    unfold encode
    split_ifs with hvalid
    · simp [hvalid]
    · rw [and_iff_right (Bool.not_eq_false _ ▸ hvalid)]
      exact emit_eq_ok (f := format)
  decode_iff _ _ _ := decode_eq_ok

end Codec

end InlineCompletion

/-! ### Statuses other than OK -/

/-- The session and the generation a caller expects; a completion with an error has none. -/
structure Expected (expected : UInt64 × UInt64) (sessionId generation : UInt64) (status : UInt32) :
    Prop where
  session : expected.1 = sessionId
  nonzero : expected.2 ≠ 0
  generation : status = statusOk → expected.2 = generation

theorem errorCompletion_valid {sessionId : UInt64} {status : UInt32} :
    (errorCompletion sessionId status).valid = true ↔
      sessionId ≠ 0 ∧ status ≤ statusDeviceLost := by
  simp [InlineCompletion.valid_iff, errorCompletion]

theorem eq_errorCompletion {completion : InlineCompletion} (h : completion.valid = true)
    (hstatus : completion.status ≠ statusOk) :
    completion = errorCompletion completion.sessionId completion.status := by
  obtain ⟨-, -, -, hschema, hdata⟩ := InlineCompletion.valid_iff.mp h
  have hdata := hdata.resolve_left hstatus
  have hrecord : completion.recordSchemaId = 0 := not_not.mp fun hne => hschema.mpr hne hdata
  obtain ⟨_, _, _, _⟩ := completion
  rw [errorCompletion, InlineCompletion.mk.injEq]
  exact ⟨rfl, rfl, hrecord, length_eq_zero_iff.mp hdata⟩

theorem status_of_represents {completion : InlineCompletion} {bytes : List UInt8}
    (h : completion.valid = true) (hr : InlineCompletion.format.Represents bytes completion) :
    completionHeaderSize ≤ bytes.length ∧ loadU32 (ofList bytes) 48 = completion.status := by
  obtain ⟨-, -, hlength, -, -⟩ := InlineCompletion.valid_iff.mp h
  refine ⟨?_, ((InlineCompletion.held_image hlength).mp hr.held).1.2.2.1⟩
  rw [hr.size]
  exact Nat.le_add_right_of_le (Nat.le_add_right _ _)

/-- A kind of completion whose errors go through the inline codec. -/
structure Delegating (α : Type) where
  sessionId : α → UInt64
  generation : α → UInt64
  status : α → UInt32
  valid : α → Bool
  failed : UInt64 → UInt32 → α
  success : Format α
  failed_sessionId : ∀ s t, sessionId (failed s t) = s
  failed_status : ∀ s t, status (failed s t) = t
  valid_error_iff : ∀ x, status x ≠ statusOk → (valid x = true ↔
    (sessionId x ≠ 0 ∧ status x ≤ statusDeviceLost) ∧ x = failed (sessionId x) (status x))
  valid_ok : ∀ x, status x = statusOk → valid x = true → sessionId x ≠ 0 ∧ generation x ≠ 0
  header : ∀ bytes x, status x = statusOk → success.Represents bytes x →
    completionHeaderSize ≤ bytes.length ∧ loadU32 (ofList bytes) 48 = statusOk

namespace Delegating
variable {α : Type} {d : Delegating α} {expected : UInt64 × UInt64} {buffer bytes result : List UInt8}
  {x : α} {size : ℕ}
  {decodeOk : UInt64 × UInt64 → List UInt8 → Except Status α}

def error (d : Delegating α) (x : α) : InlineCompletion := errorCompletion (d.sessionId x) (d.status x)

def format (d : Delegating α) : Format α :=
  .byCases (fun x => d.status x = statusOk) d.success (InlineCompletion.format.comap d.error)

def encode (d : Delegating α) (buffer : List UInt8) (x : α) : Except Status (List UInt8 × ℕ) :=
  if d.valid x = false then .error .malformed
  else if d.status x ≠ statusOk then (d.error x).encode buffer
  else emit buffer (d.success.size x) (d.success.stores x)

/-- `decodeOk` is the rest of the decoder, behind the test of the status. -/
def decode (d : Delegating α) (decodeOk : UInt64 × UInt64 → List UInt8 → Except Status α)
    (expected : UInt64 × UInt64) (bytes : List UInt8) : Except Status α :=
  if expected.1 = 0 ∨ expected.2 = 0 then .error .invalidArgument
  else if bytes.length < completionHeaderSize then .error .bufferTooSmall
  else if loadU32 (ofList bytes) 48 ≠ statusOk then
    (InlineCompletion.decode expected.1 bytes).map fun error =>
      d.failed error.sessionId error.status
  else decodeOk expected bytes

theorem represents_ok (h : d.status x = statusOk) :
    d.format.Represents bytes x ↔ d.success.Represents bytes x :=
  Format.represents_byCases_pos h

theorem represents_error (h : d.status x ≠ statusOk) :
    d.format.Represents bytes x ↔ InlineCompletion.format.Represents bytes (d.error x) := by
  refine Iff.trans ?_ Format.represents_comap
  exact Format.represents_byCases_neg h

theorem encode_eq_ok :
    d.encode buffer x = .ok (result, size) ↔
      d.valid x = true ∧ size = d.format.size x ∧ size ≤ buffer.length ∧
        result = d.format.emit buffer x := by
  unfold encode
  split_ifs with hvalid hx
  · simp [hvalid]
  · rw [Bool.not_eq_false] at hvalid
    obtain ⟨herror, -⟩ := (d.valid_error_iff x hx).mp hvalid
    have hsize : d.format.size x = InlineCompletion.format.size (d.error x) := if_neg hx
    have hemit : d.format.emit buffer x = InlineCompletion.format.emit buffer (d.error x) :=
      Format.emit_byCases_neg hx
    rw [InlineCompletion.codec.encode_iff, hsize, hemit, hvalid, error, errorCompletion_valid,
      and_iff_right herror, and_iff_right rfl]
  · rw [Bool.not_eq_false] at hvalid
    have hx := not_not.mp hx
    have hsize : d.format.size x = d.success.size x := if_pos hx
    have hemit : d.format.emit buffer x = d.success.emit buffer x := Format.emit_byCases_pos hx
    rw [emit_eq_ok, hsize, hemit, hvalid, and_iff_right rfl]

theorem decode_error_iff (h : loadU32 (ofList bytes) 48 ≠ statusOk) :
    ((InlineCompletion.decode expected.1 bytes).map fun error =>
        d.failed error.sessionId error.status) = .ok x ↔
      (d.valid x = true ∧ d.status x ≠ statusOk ∧ expected.1 = d.sessionId x) ∧
        InlineCompletion.format.Represents bytes (d.error x) := by
  constructor
  · intro hdecode
    cases hinline : InlineCompletion.decode expected.1 bytes with
    | error e =>
      rw [hinline] at hdecode
      cases hdecode
    | ok error =>
      rw [hinline] at hdecode
      obtain rfl := Except.ok.inj hdecode
      obtain ⟨⟨hvalid, hsame⟩, hr⟩ := InlineCompletion.decode_eq_ok.mp hinline
      have hne : error.status ≠ statusOk := (status_of_represents hvalid hr).2 ▸ h
      have herror := eq_errorCompletion hvalid hne
      have hx : d.status (d.failed error.sessionId error.status) ≠ statusOk := by
        rwa [d.failed_status]
      rw [herror, errorCompletion_valid] at hvalid
      rw [d.valid_error_iff _ hx, Delegating.error, d.failed_status, d.failed_sessionId, ← herror]
      exact ⟨⟨⟨hvalid, rfl⟩, hne, hsame⟩, hr⟩
  · rintro ⟨⟨hvalid, hx, hsame⟩, hr⟩
    obtain ⟨herror, hfailed⟩ := (d.valid_error_iff x hx).mp hvalid
    have hinline : InlineCompletion.decode expected.1 bytes = .ok (d.error x) :=
      InlineCompletion.decode_eq_ok.mpr ⟨⟨errorCompletion_valid.mpr herror, hsame⟩, hr⟩
    rw [hinline]
    exact congrArg Except.ok hfailed.symm

theorem codec
    (hok : ∀ expected bytes x, loadU32 (ofList bytes) 48 = statusOk →
      (decodeOk expected bytes = .ok x ↔ (d.valid x = true ∧ d.status x = statusOk ∧
        expected.1 = d.sessionId x ∧ expected.2 = d.generation x) ∧ d.success.Represents bytes x)) :
    Codec d.format (d.valid · = true)
      (fun expected x => Expected expected (d.sessionId x) (d.generation x) (d.status x)) d.encode
      (d.decode decodeOk) where
  encode_iff _ _ _ _ := encode_eq_ok
  decode_iff expected bytes x := by
    unfold decode
    constructor
    · intro h
      split_ifs at h with hzero hsize hstatus
      · obtain ⟨⟨hvalid, hx, hsame⟩, hr⟩ := (decode_error_iff hstatus).mp h
        refine ⟨⟨hvalid, hsame, fun h => hzero (.inr h), fun h => absurd h hx⟩, ?_⟩
        rwa [represents_error hx]
      · obtain ⟨⟨hvalid, hx, hsame, hgeneration⟩, hr⟩ :=
          (hok expected bytes x (not_not.mp hstatus)).mp h
        refine ⟨⟨hvalid, hsame, fun h => hzero (.inr h), fun _ => hgeneration⟩, ?_⟩
        rwa [represents_ok hx]
    · rintro ⟨⟨hvalid, hexpected⟩, hr⟩
      by_cases hx : d.status x = statusOk
      · rw [represents_ok hx] at hr
        obtain ⟨hsize, hstatus⟩ := d.header bytes x hx hr
        have hnonzero := hexpected.session ▸ (d.valid_ok x hx hvalid).1
        rw [if_neg (not_or.mpr ⟨hnonzero, hexpected.nonzero⟩), if_neg (Nat.not_lt.mpr hsize),
          if_neg (not_not.mpr hstatus), hok expected bytes x hstatus]
        exact ⟨⟨hvalid, hx, hexpected.session, hexpected.generation hx⟩, hr⟩
      · rw [represents_error hx] at hr
        have herror := ((d.valid_error_iff x hx).mp hvalid).1
        obtain ⟨hsize, hstatus⟩ := status_of_represents (errorCompletion_valid.mpr herror) hr
        have hstatus : loadU32 (ofList bytes) 48 ≠ statusOk := hstatus ▸ hx
        have hnonzero := hexpected.session ▸ herror.1
        rw [if_neg (not_or.mpr ⟨hnonzero, hexpected.nonzero⟩), if_neg (Nat.not_lt.mpr hsize),
          if_pos hstatus, decode_error_iff hstatus]
        exact ⟨⟨hvalid, hx, hexpected.session⟩, hr⟩

theorem represents_success (hvalid : d.valid x = true)
    (hstatus : loadU32 (ofList bytes) 48 = statusOk) (h : d.format.Represents bytes x) :
    d.success.Represents bytes x := by
  by_cases hx : d.status x = statusOk
  · exact (represents_ok hx).mp h
  · have herror := errorCompletion_valid.mpr ((d.valid_error_iff x hx).mp hvalid).1
    have hsame := (status_of_represents herror ((represents_error hx).mp h)).2
    exact absurd (hsame.symm.trans hstatus) hx

end Delegating

end Kobox.Gpu
