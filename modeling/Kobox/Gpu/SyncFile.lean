import Kobox.Gpu.Descriptor

/-!
# Requests for sync files (`include/kobox2/gpu_sync_file.h`)
-/

namespace Kobox.Gpu.SyncFile
open ByteMemory LittleEndian Protocol List

structure Request where
  opcode : UInt32
  token : UInt64
  flags : UInt64
  sessionId : UInt64
  syncFileToken : UInt64
  deriving DecidableEq, Repr

/-- `KB2_GPU_OPCODE_DMA_BUF_EXPORT_SYNC_FILE`. -/
def opExport : UInt32 := 5

/-- `KB2_GPU_OPCODE_DMA_BUF_IMPORT_SYNC_FILE`. -/
def opImport : UInt32 := 6

/-- `KB2_GPU_OPCODE_SYNC_FILE_RELEASE`. -/
def opRelease : UInt32 := 7

def load (m : Memory) (a : ℕ) : UInt64 :=
  (List.range 8).foldl (fun value i => value ||| (m (a + i)).toUInt64 <<< .ofNat (i * 8)) 0

def store (value : UInt64) : List UInt8 :=
  (List.range 8).map fun i => (value >>> .ofNat (i * 8)).toUInt8

def requestSize (op : UInt32) : ℕ :=
  if op = opExport then 32 else if op = opImport then 24 else if op = opRelease then 8 else 0

def responseSize (op : UInt32) : ℕ :=
  if op = opExport then 40 else if op = opImport then 32 else if op = opRelease then 16 else 0

def requestValid (r : Request) : Bool :=
  r.token != 0 &&
    if r.opcode = opExport then r.sessionId != 0 && r.syncFileToken == 0
    else if r.opcode = opImport then r.syncFileToken != 0 && r.sessionId == 0
    else if r.opcode = opRelease then r.flags == 0 && r.sessionId == 0 && r.syncFileToken == 0
    else false

def requestStores (r : Request) : List Store :=
  ⟨0, store r.token⟩ ::
    if r.opcode = opExport then [⟨8, store r.flags⟩, ⟨16, store r.sessionId⟩]
    else if r.opcode = opImport then [⟨8, store r.syncFileToken⟩, ⟨16, store r.flags⟩]
    else []

def requestEncode (bytes : List UInt8) (r : Request) : Except Status (List UInt8) :=
  if requestValid r = false ∨ bytes.length ≠ requestSize r.opcode then .error .malformed
  else .ok (read (storeAll (cleared bytes bytes.length) (requestStores r)) 0 bytes.length)

def requestFields (memory : Memory) (op : UInt32) : Request :=
  let r : Request := ⟨op, load memory 0, 0, 0, 0⟩
  if op = opExport then { r with flags := load memory 8, sessionId := load memory 16 }
  else if op = opImport then { r with syncFileToken := load memory 8, flags := load memory 16 }
  else r

def requestDecode (bytes : List UInt8) (op : UInt32) : Except Status Request :=
  let memory := ofList bytes
  let expected := requestSize op
  if expected = 0 ∨ bytes.length ≠ expected then .error .malformed
  else if op = opExport ∧ load memory 24 ≠ 0 then .error .malformed
  else
    let r := requestFields memory op
    if requestValid r = false then .error .malformed else .ok r

def exportedRefused (op : UInt32) (result : Int32) (exported : UInt64) : Bool :=
  if op = opExport then if result ≠ 0 then exported != 0 else exported == 0 else exported != 0

def responseStores (r : Request) (size : ℕ) (result : Int32) (exported : UInt64) : List Store :=
  ⟨0, store r.token⟩ ::
    (if r.opcode = opExport then
        [⟨8, store r.flags⟩, ⟨16, store r.sessionId⟩, ⟨24, store exported⟩]
      else if r.opcode = opImport then [⟨8, store r.syncFileToken⟩, ⟨16, store r.flags⟩]
      else []) ++ [⟨size - 8, store result.toInt64.toUInt64⟩]

def responseEncode (bytes : List UInt8) (r : Request) (result : Int32) (exported : UInt64) :
    Except Status (List UInt8) :=
  if requestValid r = false ∨ bytes.length ≠ responseSize r.opcode ∨ 0 < result ∨
      result < -4095 ∨ exportedRefused r.opcode result exported = true then .error .malformed
  else
    .ok (read (storeAll (cleared bytes bytes.length)
      (responseStores r bytes.length result exported)) 0 bytes.length)

def responseDecode (bytes : List UInt8) (r : Request) : Except Status (Int32 × UInt64) :=
  let memory := ofList bytes
  if requestValid r = false ∨ bytes.length ≠ responseSize r.opcode ∨ load memory 0 ≠ r.token then
    .error .malformed
  else if r.opcode = opExport ∧ (load memory 8 ≠ r.flags ∨ load memory 16 ≠ r.sessionId) then
    .error .malformed
  else if r.opcode = opImport ∧
      (load memory 8 ≠ r.syncFileToken ∨ load memory 16 ≠ r.flags) then .error .malformed
  else
    let token := if r.opcode = opExport then load memory 24 else 0
    let status := (load memory (bytes.length - 8)).toInt64
    if 0 < status ∨ status < -4095 ∨
        r.opcode = opExport ∧ (if status ≠ 0 then token ≠ 0 else token = 0) then .error .malformed
    else .ok (status.toInt32, token)

theorem toNat_shiftLeft_byte (x : UInt8) {k : ℕ} (hk : k < 8) :
    (x.toUInt64 <<< .ofNat (k * 8)).toNat = x.toNat <<< (8 * k) := by
  have hshift : (UInt64.ofNat (k * 8)).toNat % 64 = 8 * k := by
    rw [UInt64.toNat_ofNat', Nat.mod_eq_of_lt (by omega), Nat.mod_eq_of_lt (by omega), Nat.mul_comm]
  rw [UInt64.toNat_shiftLeft, UInt8.toNat_toUInt64, hshift]
  refine Nat.mod_eq_of_lt ?_
  rw [Nat.shiftLeft_eq]
  calc x.toNat * 2 ^ (8 * k) < 2 ^ 8 * 2 ^ (8 * k) :=
        Nat.mul_lt_mul_of_pos_right x.toNat_lt (Nat.two_pow_pos _)
    _ = 2 ^ (8 * (k + 1)) := by rw [← Nat.pow_add]; congr 1; omega
    _ ≤ 2 ^ 64 := Nat.pow_le_pow_right (by decide) (by omega)

theorem load_eq (m : Memory) (a : ℕ) : load m a = loadU64 m a := by
  have hloop : ∀ k ≤ 8, ((List.range k).foldl
      (fun value i => value ||| (m (a + i)).toUInt64 <<< .ofNat (i * 8)) 0).toNat =
        value (read m a k) := by
    intro k
    induction k with
    | zero => intro _; rfl
    | succ k ih =>
      intro hk
      have hread : read m a (k + 1) = read m a k ++ [m (a + k)] := read_append m a k 1
      have hlt : value (read m a k) < 2 ^ (8 * k) := by
        have hvalue := value_lt (read m a k)
        rw [read_length] at hvalue
        rw [Nat.pow_mul]
        exact hvalue
      rw [range_succ, foldl_append, foldl_cons, foldl_nil, UInt64.toNat_or,
        ih (by omega), toNat_shiftLeft_byte _ (by omega), or_shiftLeft_eq_add hlt, hread,
        value_append, read_length, value_cons, value_nil, Nat.pow_mul]
      rfl
  rw [← UInt64.toNat_inj, toNat_loadU64]
  exact hloop 8 (Nat.le_refl 8)

theorem store_eq (value : UInt64) : store value = storeU64 value := by
  have hloop : ∀ k ≤ 8, ((List.range k).map fun i => (value >>> .ofNat (i * 8)).toUInt8) =
      bytes value.toNat k := by
    intro k
    induction k with
    | zero => intro _; rfl
    | succ k ih =>
      intro hk
      have hshift : (UInt64.ofNat (k * 8)).toNat % 64 = 8 * k := by
        rw [UInt64.toNat_ofNat', Nat.mod_eq_of_lt (by omega), Nat.mod_eq_of_lt (by omega),
          Nat.mul_comm]
      have hbyte : (value >>> .ofNat (k * 8)).toUInt8 = UInt8.ofNat (value.toNat / 256 ^ k) := by
        rw [← UInt8.toNat_inj, UInt64.toNat_toUInt8, UInt64.toNat_shiftRight, hshift,
          Nat.shiftRight_eq_div_pow, UInt8.toNat_ofNat', Nat.pow_mul]
      rw [range_succ, map_append, ih (by omega), bytes_add, map_singleton, hbyte]
      rfl
  rw [storeU64_eq]
  exact hloop 8 (Nat.le_refl 8)

/-! ### Requests -/

def exportFormat : Format Request where
  size _ := 32
  stores r := [⟨0, store r.token⟩, ⟨8, store r.flags⟩, ⟨16, store r.sessionId⟩]
  image r := [⟨0, store r.token⟩, ⟨8, store r.flags⟩, ⟨16, store r.sessionId⟩, .zeros 24 8]
  fills _ := .cons 8 rfl <| .cons 8 rfl <| .cons 8 rfl <| .skip <| .nil _

def importFormat : Format Request where
  size _ := 24
  stores r := [⟨0, store r.token⟩, ⟨8, store r.syncFileToken⟩, ⟨16, store r.flags⟩]
  image r := [⟨0, store r.token⟩, ⟨8, store r.syncFileToken⟩, ⟨16, store r.flags⟩]
  fills _ := .cons 8 rfl <| .cons 8 rfl <| .cons 8 rfl <| .nil _

def releaseFormat : Format Request where
  size _ := 8
  stores r := [⟨0, store r.token⟩]
  image r := [⟨0, store r.token⟩]
  fills _ := .cons 8 rfl <| .nil _

def requestFormat (op : UInt32) : Format Request :=
  if op = opExport then exportFormat else if op = opImport then importFormat else releaseFormat

/-- The three kinds of valid requests. -/
inductive Request.Valid : Request → Prop where
  | exported {token flags sessionId : UInt64} (htoken : token ≠ 0) (hsession : sessionId ≠ 0) :
    Valid ⟨opExport, token, flags, sessionId, 0⟩
  | imported {token flags syncFileToken : UInt64} (htoken : token ≠ 0)
    (hfile : syncFileToken ≠ 0) : Valid ⟨opImport, token, flags, 0, syncFileToken⟩
  | released {token : UInt64} (htoken : token ≠ 0) : Valid ⟨opRelease, token, 0, 0, 0⟩

theorem requestValid_iff {r : Request} : requestValid r = true ↔ r.Valid := by
  constructor
  · intro h
    obtain ⟨opcode, token, flags, sessionId, syncFileToken⟩ := r
    rw [requestValid, Bool.and_eq_true, bne_iff_ne] at h
    obtain ⟨htoken, hkind⟩ := h
    dsimp only at htoken hkind
    split_ifs at hkind with hexport himport hrelease
    · simp only [Bool.and_eq_true, bne_iff_ne, beq_iff_eq] at hkind
      obtain ⟨hsession, rfl⟩ := hkind
      subst hexport
      exact .exported htoken hsession
    · simp only [Bool.and_eq_true, bne_iff_ne, beq_iff_eq] at hkind
      obtain ⟨hfile, rfl⟩ := hkind
      subst himport
      exact .imported htoken hfile
    · simp only [Bool.and_eq_true, beq_iff_eq] at hkind
      obtain ⟨⟨rfl, rfl⟩, rfl⟩ := hkind
      subst hrelease
      exact .released htoken
  · intro h
    cases h with
    | exported htoken hsession => simp [requestValid, htoken, hsession]
    | imported htoken hfile => simp [requestValid, htoken, hfile, opImport, opExport]
    | released htoken => simp [requestValid, htoken, opRelease, opImport, opExport]

section Requests
variable {bytes result : List UInt8} {r : Request} {op : UInt32}

theorem Request.Valid.format (h : r.Valid) :
    (requestFormat r.opcode).size r = requestSize r.opcode ∧
      (requestFormat r.opcode).stores r = requestStores r := by
  cases h <;> exact ⟨rfl, rfl⟩

theorem requestEncode_eq_ok :
    requestEncode bytes r = .ok result ↔
      r.Valid ∧ bytes.length = requestSize r.opcode ∧
        (requestFormat r.opcode).Represents result r := by
  rw [requestEncode, refuse_eq_ok, not_or, Bool.not_eq_false, not_not, requestValid_iff, and_assoc]
  refine and_congr_right fun hvalid => and_congr_right fun hsize => ?_
  obtain ⟨hformatSize, hstores⟩ := hvalid.format
  rw [← Format.emit_eq_iff (hsize.trans hformatSize.symm), Except.ok.injEq, Format.emit, hformatSize,
    hstores, hsize]

theorem Request.Valid.represents_iff (h : r.Valid) :
    (requestFormat r.opcode).Represents bytes r ↔
      bytes.length = requestSize r.opcode ∧
        (r.opcode = opExport → load (ofList bytes) 24 = 0) ∧
        requestFields (ofList bytes) r.opcode = r := by
  cases h with
  | exported _ _ =>
    rw [Format.represents_iff]
    simp [requestFormat, exportFormat, requestSize, requestFields, store_eq, load_eq,
      holds_storeU64_iff, holds_zeros_iff64]
    tauto
  | imported _ _ =>
    rw [Format.represents_iff]
    simp [requestFormat, importFormat, requestSize, requestFields, store_eq, load_eq,
      holds_storeU64_iff, opImport, opExport]
    tauto
  | released _ =>
    rw [Format.represents_iff]
    simp [requestFormat, releaseFormat, requestSize, requestFields, store_eq, load_eq,
      holds_storeU64_iff, opRelease, opImport, opExport]

theorem Request.Valid.requestSize_ne_zero (h : r.Valid) : requestSize r.opcode ≠ 0 := by
  cases h <;> (dsimp only; decide)

theorem requestDecode_eq_ok :
    requestDecode bytes op = .ok r ↔
      r.opcode = op ∧ r.Valid ∧ (requestFormat op).Represents bytes r := by
  have hopcode : (requestFields (ofList bytes) op).opcode = op := by
    unfold requestFields
    dsimp only
    split_ifs <;> rfl
  simp only [requestDecode, refuse_eq_ok, not_or, not_not, Bool.not_eq_false, Except.ok.injEq,
    not_and, requestValid_iff]
  constructor
  · intro ⟨⟨_, hsize⟩, hreserved, hvalid, hfields⟩
    have hop : r.opcode = op := hfields ▸ hopcode
    subst hop
    rw [hfields] at hvalid
    exact ⟨rfl, hvalid, hvalid.represents_iff.mpr ⟨hsize, hreserved, hfields⟩⟩
  · intro ⟨hop, hvalid, hrepresents⟩
    subst hop
    obtain ⟨hsize, hreserved, hfields⟩ := hvalid.represents_iff.mp hrepresents
    exact ⟨⟨hvalid.requestSize_ne_zero, hsize⟩, hreserved, hfields.symm ▸ hvalid, hfields⟩

end Requests

/-! ### Responses -/

def exportResponse (r : Request) : Format (Int32 × UInt64) where
  size _ := 40
  stores reply := [⟨0, store r.token⟩, ⟨8, store r.flags⟩, ⟨16, store r.sessionId⟩,
    ⟨24, store reply.2⟩, ⟨32, store reply.1.toInt64.toUInt64⟩]
  image reply := [⟨0, store r.token⟩, ⟨8, store r.flags⟩, ⟨16, store r.sessionId⟩,
    ⟨24, store reply.2⟩, ⟨32, store reply.1.toInt64.toUInt64⟩]
  fills _ := .cons 8 rfl <| .cons 8 rfl <| .cons 8 rfl <| .cons 8 rfl <| .cons 8 rfl <| .nil _

def importResponse (r : Request) : Format (Int32 × UInt64) where
  size _ := 32
  stores reply := [⟨0, store r.token⟩, ⟨8, store r.syncFileToken⟩, ⟨16, store r.flags⟩,
    ⟨24, store reply.1.toInt64.toUInt64⟩]
  image reply := [⟨0, store r.token⟩, ⟨8, store r.syncFileToken⟩, ⟨16, store r.flags⟩,
    ⟨24, store reply.1.toInt64.toUInt64⟩]
  fills _ := .cons 8 rfl <| .cons 8 rfl <| .cons 8 rfl <| .cons 8 rfl <| .nil _

def releaseResponse (r : Request) : Format (Int32 × UInt64) where
  size _ := 16
  stores reply := [⟨0, store r.token⟩, ⟨8, store reply.1.toInt64.toUInt64⟩]
  image reply := [⟨0, store r.token⟩, ⟨8, store reply.1.toInt64.toUInt64⟩]
  fills _ := .cons 8 rfl <| .cons 8 rfl <| .nil _

def responseFormat (r : Request) : Format (Int32 × UInt64) :=
  if r.opcode = opExport then exportResponse r
  else if r.opcode = opImport then importResponse r
  else releaseResponse r

/-- The replies to a request: a result, and a token for a sync file that was exported. -/
structure Replies (r : Request) (result : Int32) (exported : UInt64) : Prop where
  low : -4095 ≤ result.toInt
  high : result.toInt ≤ 0
  token : exported ≠ 0 ↔ r.opcode = opExport ∧ result = 0

section Responses
variable {bytes written : List UInt8} {r : Request} {result : Int32} {exported : UInt64}

theorem status_eq_iff {word : UInt64} :
    word = result.toInt64.toUInt64 ∧ -4095 ≤ result.toInt ∧ result.toInt ≤ 0 ↔
      (-4095 ≤ word.toInt64.toInt ∧ word.toInt64.toInt ≤ 0) ∧ word.toInt64.toInt32 = result := by
  constructor
  · intro ⟨hword, hlow, hhigh⟩
    subst hword
    show (-4095 ≤ result.toInt64.toInt ∧ result.toInt64.toInt ≤ 0) ∧ result.toInt64.toInt32 = result
    rw [Int32.toInt_toInt64, Int32.toInt32_toInt64]
    exact ⟨⟨hlow, hhigh⟩, rfl⟩
  · intro ⟨⟨hlow, hhigh⟩, hresult⟩
    have hvalue : result.toInt = word.toInt64.toInt := by
      rw [← hresult, Int64.toInt_toInt32, Int.bmod_eq_of_le (by omega) (by omega)]
    have hstatus : word.toInt64 = result.toInt64 := by
      rw [← Int64.toInt_inj, Int32.toInt_toInt64, hvalue]
    rw [hvalue]
    exact ⟨congrArg Int64.toUInt64 hstatus, hlow, hhigh⟩

theorem exportedRefused_iff :
    exportedRefused r.opcode result exported = false ↔
      (exported ≠ 0 ↔ r.opcode = opExport ∧ result = 0) := by
  unfold exportedRefused
  by_cases hop : r.opcode = opExport
  · by_cases hresult : result = 0
    · simp [hop, hresult]
    · simp [hop, hresult]
  · simp [hop]

theorem Request.Valid.responseFormat (h : r.Valid) (reply : Int32 × UInt64) :
    (responseFormat r).size reply = responseSize r.opcode ∧
      (SyncFile.responseFormat r).stores reply =
        responseStores r (responseSize r.opcode) reply.1 reply.2 := by
  cases h <;> exact ⟨rfl, rfl⟩

theorem responseEncode_eq_ok :
    responseEncode bytes r result exported = .ok written ↔
      r.Valid ∧ Replies r result exported ∧ bytes.length = responseSize r.opcode ∧
        (responseFormat r).Represents written (result, exported) := by
  have hlow : -4095 ≤ result ↔ -4095 ≤ result.toInt := Int32.le_iff_toInt_le
  have hhigh : result ≤ 0 ↔ result.toInt ≤ 0 := Int32.le_iff_toInt_le
  have hreplies : Replies r result exported ↔ result.toInt ≤ 0 ∧ -4095 ≤ result.toInt ∧
      (exported ≠ 0 ↔ r.opcode = opExport ∧ result = 0) :=
    ⟨fun h => ⟨h.high, h.low, h.token⟩, fun h => ⟨h.2.1, h.1, h.2.2⟩⟩
  have hwritten : r.Valid → bytes.length = responseSize r.opcode →
      (Except.ok (read (storeAll (cleared bytes bytes.length)
        (responseStores r bytes.length result exported)) 0 bytes.length) =
          (.ok written : Except Status (List UInt8)) ↔
        (responseFormat r).Represents written (result, exported)) := by
    intro hvalid hsize
    obtain ⟨hformatSize, hstores⟩ := hvalid.responseFormat (result, exported)
    rw [← Format.emit_eq_iff (hsize.trans hformatSize.symm), Except.ok.injEq, Format.emit,
      hformatSize, hstores, hsize]
  rw [responseEncode, refuse_eq_ok]
  simp only [not_or, Bool.not_eq_false, not_not, Int32.not_lt, Bool.not_eq_true, requestValid_iff,
    exportedRefused_iff, hlow, hhigh, hreplies]
  constructor
  · rintro ⟨⟨hvalid, hsize, hreply⟩, hcall⟩
    exact ⟨hvalid, hreply, hsize, (hwritten hvalid hsize).mp hcall⟩
  · rintro ⟨hvalid, hreply, hsize, hrepresents⟩
    exact ⟨⟨hvalid, hsize, hreply⟩, (hwritten hvalid hsize).mpr hrepresents⟩

theorem Request.Valid.represents_response (h : r.Valid) :
    (SyncFile.responseFormat r).Represents bytes (result, exported) ↔
      bytes.length = responseSize r.opcode ∧ load (ofList bytes) 0 = r.token ∧
        (r.opcode = opExport → load (ofList bytes) 8 = r.flags ∧
          load (ofList bytes) 16 = r.sessionId ∧ load (ofList bytes) 24 = exported) ∧
        (r.opcode = opImport → load (ofList bytes) 8 = r.syncFileToken ∧
          load (ofList bytes) 16 = r.flags) ∧
        load (ofList bytes) (responseSize r.opcode - 8) = result.toInt64.toUInt64 := by
  cases h with
  | exported _ _ =>
    rw [Format.represents_iff]
    simp [SyncFile.responseFormat, exportResponse, responseSize, store_eq, load_eq,
      holds_storeU64_iff, opImport, opExport]
    tauto
  | imported _ _ =>
    rw [Format.represents_iff]
    simp [SyncFile.responseFormat, importResponse, responseSize, store_eq, load_eq,
      holds_storeU64_iff, opImport, opExport]
    tauto
  | released _ =>
    rw [Format.represents_iff]
    simp [SyncFile.responseFormat, releaseResponse, responseSize, store_eq, load_eq,
      holds_storeU64_iff, opRelease, opImport, opExport]

theorem replies_iff {word token : UInt64} (htoken : r.opcode ≠ opExport → token = 0) :
    ¬(0 < word.toInt64 ∨ word.toInt64 < -4095 ∨
        r.opcode = opExport ∧ (if word.toInt64 ≠ 0 then token ≠ 0 else token = 0)) ∧
      (word.toInt64.toInt32, token) = (result, exported) ↔
    Replies r result exported ∧ word = result.toInt64.toUInt64 ∧ token = exported := by
  have hlow : -4095 ≤ word.toInt64 ↔ -4095 ≤ word.toInt64.toInt := Int64.le_iff_toInt_le
  have hhigh : word.toInt64 ≤ 0 ↔ word.toInt64.toInt ≤ 0 := Int64.le_iff_toInt_le
  have hzero : word = result.toInt64.toUInt64 → (word.toInt64 = 0 ↔ result = 0) := by
    intro hword
    have hstatus : word.toInt64.toInt = result.toInt := by
      rw [hword]
      exact Int32.toInt_toInt64 result
    rw [← Int64.toInt_inj, ← Int32.toInt_inj, hstatus]
    rfl
  simp only [not_or, Int64.not_lt, hlow, hhigh, Prod.mk.injEq]
  constructor
  · intro ⟨⟨hhigh, hlow, hrefused⟩, hresult, hexported⟩
    obtain ⟨hword, hresultLow, hresultHigh⟩ := status_eq_iff.mpr ⟨⟨hlow, hhigh⟩, hresult⟩
    refine ⟨⟨hresultLow, hresultHigh, ?_⟩, hword, hexported⟩
    rw [← hexported, ← hzero hword]
    by_cases hop : r.opcode = opExport
    · by_cases hstatus : word.toInt64 = 0
      · simpa [hop, hstatus] using hrefused
      · simpa [hop, hstatus] using hrefused
    · simp [hop, htoken hop]
  · intro ⟨hreplies, hword, hexported⟩
    obtain ⟨⟨hlow, hhigh⟩, hresult⟩ := status_eq_iff.mp ⟨hword, hreplies.low, hreplies.high⟩
    refine ⟨⟨hhigh, hlow, ?_⟩, hresult, hexported⟩
    have hreply := hreplies.token
    rw [← hexported, ← hzero hword] at hreply
    by_cases hstatus : word.toInt64 = 0
    · simpa [hstatus] using fun hop => hreply.mpr ⟨hop, hstatus⟩
    · have hnone : token = 0 := by simpa [hstatus] using hreply
      simp [hstatus, hnone]

theorem responseDecode_eq_ok :
    responseDecode bytes r = .ok (result, exported) ↔
      r.Valid ∧ Replies r result exported ∧
        (responseFormat r).Represents bytes (result, exported) := by
  have htoken : r.opcode ≠ opExport →
      (if r.opcode = opExport then load (ofList bytes) 24 else 0) = 0 := fun hop => if_neg hop
  simp only [responseDecode, refuse_eq_ok, Except.ok.injEq, replies_iff htoken]
  simp only [not_or, not_and, not_not, Bool.not_eq_false, requestValid_iff]
  constructor
  · intro ⟨⟨hvalid, hsize, hfirst⟩, hexport, himport, hreplies, hword, hexported⟩
    refine ⟨hvalid, hreplies, hvalid.represents_response.mpr ⟨hsize, hfirst, ?_, himport, ?_⟩⟩
    · intro hop
      rw [if_pos hop] at hexported
      exact ⟨(hexport hop).1, (hexport hop).2, hexported⟩
    · rw [← hsize, hword]
  · intro ⟨hvalid, hreplies, hrepresents⟩
    obtain ⟨hsize, hfirst, hexport, himport, hword⟩ := hvalid.represents_response.mp hrepresents
    refine ⟨⟨hvalid, hsize, hfirst⟩, fun hop => ⟨(hexport hop).1, (hexport hop).2.1⟩, himport,
      hreplies, hsize ▸ hword, ?_⟩
    split_ifs with hop
    · exact (hexport hop).2.2
    · have hnone := hreplies.token
      by_contra hexported
      exact hop (hnone.mp (Ne.symm hexported)).1

end Responses

theorem request_unique {r other : Request} {bytes : List UInt8} {reply accepted : Int32 × UInt64}
    (hvalid : r.Valid) (hother : other.Valid) (hop : other.opcode = r.opcode)
    (h : (responseFormat r).Represents bytes reply)
    (haccepted : (responseFormat other).Represents bytes accepted) : other = r := by
  obtain ⟨-, htoken, hexport, himport, -⟩ := hvalid.represents_response.mp h
  obtain ⟨-, htoken', hexport', himport', -⟩ := hother.represents_response.mp haccepted
  have hsame : other.token = r.token := htoken'.symm.trans htoken
  cases hvalid <;> cases hother <;> try exact absurd hop (by dsimp only; decide)
  · obtain ⟨hflags, hsession, -⟩ := hexport rfl
    obtain ⟨hflags', hsession', -⟩ := hexport' rfl
    simp only [Request.mk.injEq, true_and, and_true]
    exact ⟨hsame, hflags'.symm.trans hflags, hsession'.symm.trans hsession⟩
  · obtain ⟨hfile, hflags⟩ := himport rfl
    obtain ⟨hfile', hflags'⟩ := himport' rfl
    simp only [Request.mk.injEq, true_and]
    exact ⟨hsame, hflags'.symm.trans hflags, hfile'.symm.trans hfile⟩
  · simp only [Request.mk.injEq, true_and, and_true]
    exact hsame

/-- Requests and responses have exact codecs, and a response is accepted for no other request of
its opcode. -/
theorem sync_file_bound :
    (∀ (bytes : List UInt8) (op : UInt32) (r : Request),
      requestDecode bytes op = .ok r ↔
        r.opcode = op ∧ requestValid r = true ∧ ∃ buffer, requestEncode buffer r = .ok bytes) ∧
    (∀ r : Request, requestValid r = true → ∀ buffer : List UInt8,
      buffer.length = requestSize r.opcode →
        ∃ bytes, requestEncode buffer r = .ok bytes ∧ requestDecode bytes r.opcode = .ok r) ∧
    (∀ r : Request, requestValid r = true →
      ∀ (bytes : List UInt8) (result : Int32) (exported : UInt64),
        responseDecode bytes r = .ok (result, exported) ↔
          (-4095 ≤ result.toInt ∧ result.toInt ≤ 0) ∧
          (exported ≠ 0 ↔ r.opcode = opExport ∧ result = 0) ∧
          ∃ buffer, responseEncode buffer r result exported = .ok bytes) ∧
    (∀ r : Request, requestValid r = true →
      ∀ (result : Int32) (exported : UInt64), -4095 ≤ result.toInt → result.toInt ≤ 0 →
        (exported ≠ 0 ↔ r.opcode = opExport ∧ result = 0) →
        ∀ buffer : List UInt8, buffer.length = responseSize r.opcode →
          ∃ bytes, responseEncode buffer r result exported = .ok bytes) ∧
    ∀ (r other : Request) (buffer bytes : List UInt8) (result : Int32) (exported : UInt64)
      (accepted : Int32 × UInt64), responseEncode buffer r result exported = .ok bytes →
      responseDecode bytes other = .ok accepted → other.opcode = r.opcode →
        other.token = r.token ∧ other.flags = r.flags ∧ other.sessionId = r.sessionId ∧
          other.syncFileToken = r.syncFileToken := by
  refine ⟨fun bytes op r => ?_, fun r hvalid buffer hsize => ?_,
    fun r hvalid bytes result exported => ?_,
    fun r hvalid result exported hlow hhigh htoken buffer hsize => ?_,
    fun r other buffer bytes result exported accepted hencode hdecode hop => ?_⟩
  · rw [requestDecode_eq_ok, requestValid_iff]
    simp only [requestEncode_eq_ok]
    constructor
    · intro ⟨hop, hvalid, hrepresents⟩
      subst hop
      exact ⟨rfl, hvalid, bytes, hvalid, hrepresents.size.trans hvalid.format.1, hrepresents⟩
    · intro ⟨hop, hvalid, _, _, _, hrepresents⟩
      subst hop
      exact ⟨rfl, hvalid, hrepresents⟩
  · have hrequest := requestValid_iff.mp hvalid
    have hrepresents := (Format.emit_eq_iff (hsize.trans hrequest.format.1.symm)).mp rfl
    exact ⟨_, requestEncode_eq_ok.mpr ⟨hrequest, hsize, hrepresents⟩,
      requestDecode_eq_ok.mpr ⟨rfl, hrequest, hrepresents⟩⟩
  · have hrequest := requestValid_iff.mp hvalid
    simp only [responseDecode_eq_ok, responseEncode_eq_ok]
    constructor
    · intro ⟨_, hreplies, hrepresents⟩
      exact ⟨⟨hreplies.low, hreplies.high⟩, hreplies.token, bytes, hrequest, hreplies,
        hrepresents.size.trans (hrequest.responseFormat _).1, hrepresents⟩
    · intro ⟨_, _, _, _, hreplies, _, hrepresents⟩
      exact ⟨hrequest, hreplies, hrepresents⟩
  · have hrequest := requestValid_iff.mp hvalid
    have hrepresents := (Format.emit_eq_iff
      (hsize.trans (hrequest.responseFormat (result, exported)).1.symm)).mp rfl
    exact ⟨_, responseEncode_eq_ok.mpr ⟨hrequest, ⟨hlow, hhigh, htoken⟩, hsize, hrepresents⟩⟩
  · obtain ⟨hvalid, -, -, hrepresents⟩ := responseEncode_eq_ok.mp hencode
    obtain ⟨hother, -, haccepted⟩ := responseDecode_eq_ok.mp hdecode
    obtain rfl := request_unique hvalid hother hop hrepresents haccepted
    exact ⟨rfl, rfl, rfl, rfl⟩

end Kobox.Gpu.SyncFile
