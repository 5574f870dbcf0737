import Kobox.Filesystem.RequestCodec

/-!
# Filesystem responses and credentials (`protocol/src/filesystem.c`)

A response is a header of 64 bytes, followed by data whose length the header gives. Its result is
signed, but is stored and loaded as an unsigned word. The credentials of a client are a record of
80 bytes.
-/

namespace Kobox.Filesystem
open ByteMemory Protocol List Option

structure Response where
  opcode : UInt32
  generation : UInt64
  sequence : UInt64
  result : Int64
  handle : UInt64
  dataLength : UInt64
  service : UInt32
  deriving DecidableEq

def responseSize : ℕ := 64

def responseValid (response : Response) : Bool :=
  opcodeValid response.opcode && response.generation != 0 && response.sequence != 0 &&
    -4095 ≤ response.result && response.dataLength ≤ uint64Max - 64 &&
    (0 ≤ response.result ||
      (response.handle == 0 && response.dataLength == 0 && response.service == 0))

def encodeResponse (response : Response) : List Store :=
  [⟨0, abiIdentity⟩, ⟨4, storeU32 response.opcode⟩, ⟨8, storeU64 response.generation⟩,
    ⟨16, storeU64 response.sequence⟩, ⟨24, storeU64 response.result.toUInt64⟩,
    ⟨32, storeU64 response.handle⟩, ⟨40, storeU64 response.dataLength⟩,
    ⟨48, storeU32 response.service⟩]

/-- `kb2_fs_response_encode`: the buffer after the call. -/
def responseEncode (bytes : List UInt8) (response : Response) : Option (List UInt8) :=
  if bytes.length < responseSize ∨ responseValid response = false then none
  else some (read (storeAll (cleared bytes responseSize) (encodeResponse response)) 0 bytes.length)

def decodeResponse (memory : Memory) : Response where
  opcode := loadU32 memory 4
  generation := loadU64 memory 8
  sequence := loadU64 memory 16
  result := signed64 (loadU64 memory 24)
  handle := loadU64 memory 32
  dataLength := loadU64 memory 40
  service := loadU32 memory 48

def responseDecode (bytes : List UInt8) : Option Response :=
  let memory := ofList bytes
  if bytes.length < responseSize ∨ read memory 0 4 ≠ abiIdentity ∨
      bytesAreZero memory 52 12 = false then none
  else
    let value := decodeResponse memory
    if responseValid value = false ∨ value.dataLength.toNat ≠ bytes.length - responseSize then none
    else some value

structure Credentials where
  uid : UInt32
  gid : UInt32
  euid : UInt32
  egid : UInt32
  suid : UInt32
  sgid : UInt32
  fsuid : UInt32
  fsgid : UInt32
  capPermitted : UInt64
  capEffective : UInt64
  capInheritable : UInt64
  capAmbient : UInt64
  securebits : UInt32
  umask : UInt32
  deriving DecidableEq

def credentialsSize : ℕ := 80

def umaskValid (umask : UInt32) : Bool := umask &&& ~~~0o777 == 0

/-- The fields of `CREDENTIAL_U32_FIELDS`, and those of `CREDENTIAL_U64_FIELDS`. -/
def encodeCredentials (credentials : Credentials) : List Store :=
  [⟨0, storeU32 credentials.uid⟩, ⟨4, storeU32 credentials.gid⟩, ⟨8, storeU32 credentials.euid⟩,
    ⟨12, storeU32 credentials.egid⟩, ⟨16, storeU32 credentials.suid⟩,
    ⟨20, storeU32 credentials.sgid⟩, ⟨24, storeU32 credentials.fsuid⟩,
    ⟨28, storeU32 credentials.fsgid⟩, ⟨64, storeU32 credentials.securebits⟩,
    ⟨68, storeU32 credentials.umask⟩, ⟨32, storeU64 credentials.capPermitted⟩,
    ⟨40, storeU64 credentials.capEffective⟩, ⟨48, storeU64 credentials.capInheritable⟩,
    ⟨56, storeU64 credentials.capAmbient⟩]

/-- `kb2_fs_credentials_encode`: the buffer after the call. -/
def credentialsEncode (bytes : List UInt8) (credentials : Credentials) : Option (List UInt8) :=
  if bytes.length < credentialsSize ∨ umaskValid credentials.umask = false then none
  else
    some (read (storeAll (cleared bytes credentialsSize) (encodeCredentials credentials)) 0
      bytes.length)

def decodeCredentials (memory : Memory) : Credentials where
  uid := loadU32 memory 0
  gid := loadU32 memory 4
  euid := loadU32 memory 8
  egid := loadU32 memory 12
  suid := loadU32 memory 16
  sgid := loadU32 memory 20
  fsuid := loadU32 memory 24
  fsgid := loadU32 memory 28
  capPermitted := loadU64 memory 32
  capEffective := loadU64 memory 40
  capInheritable := loadU64 memory 48
  capAmbient := loadU64 memory 56
  securebits := loadU32 memory 64
  umask := loadU32 memory 68

def credentialsDecode (bytes : List UInt8) : Option Credentials :=
  let memory := ofList bytes
  if bytes.length ≠ credentialsSize ∨ loadU64 memory 72 ≠ 0 then none
  else
    let value := decodeCredentials memory
    if umaskValid value.umask = false then none else some value

/-! ### Formats -/

theorem fills_response (response : Response) :
    Fills (encodeResponse response) (encodeResponse response ++ [.zeros 52 12]) 0 responseSize :=
  .cons 4 rfl <| .cons 4 rfl <| .cons 8 rfl <| .cons 8 rfl <| .cons 8 rfl <| .cons 8 rfl <|
    .cons 8 rfl <| .cons 4 rfl <| .skip <| .nil _

def responseFormat : Format Response where
  size _ := responseSize
  stores := encodeResponse
  image response := encodeResponse response ++ [.zeros 52 12]
  fills := fills_response

theorem held_response {memory : Memory} {response : Response} :
    Held memory (responseFormat.image response) ↔
      Holds memory 0 abiIdentity ∧ decodeResponse memory = response ∧
        bytesAreZero memory 52 12 = true := by
  obtain ⟨⟩ := response
  simp only [responseFormat, encodeResponse, cons_append, nil_append, held_cons,
    held_nil, holds_storeU32_iff, holds_storeU64_iff, holds_zeros_iff, and_true, decodeResponse,
    Response.mk.injEq, signed64_eq_iff, and_assoc]

def credentialsFields (credentials : Credentials) : List Store :=
  [⟨0, storeU32 credentials.uid⟩, ⟨4, storeU32 credentials.gid⟩, ⟨8, storeU32 credentials.euid⟩,
    ⟨12, storeU32 credentials.egid⟩, ⟨16, storeU32 credentials.suid⟩,
    ⟨20, storeU32 credentials.sgid⟩, ⟨24, storeU32 credentials.fsuid⟩,
    ⟨28, storeU32 credentials.fsgid⟩, ⟨32, storeU64 credentials.capPermitted⟩,
    ⟨40, storeU64 credentials.capEffective⟩, ⟨48, storeU64 credentials.capInheritable⟩,
    ⟨56, storeU64 credentials.capAmbient⟩, ⟨64, storeU32 credentials.securebits⟩,
    ⟨68, storeU32 credentials.umask⟩]

theorem fills_credentials (credentials : Credentials) :
    Fills (credentialsFields credentials) (credentialsFields credentials ++ [.zeros 72 8]) 0
      credentialsSize :=
  .cons 4 rfl <| .cons 4 rfl <| .cons 4 rfl <| .cons 4 rfl <| .cons 4 rfl <| .cons 4 rfl <|
    .cons 4 rfl <| .cons 4 rfl <| .cons 8 rfl <| .cons 8 rfl <| .cons 8 rfl <| .cons 8 rfl <|
    .cons 4 rfl <| .cons 4 rfl <| .skip <| .nil _

def credentialsOrder : List ℕ := [0, 1, 2, 3, 4, 5, 6, 7, 12, 13, 8, 9, 10, 11]

theorem credentialsOrder_perm : credentialsOrder.Perm (List.range 14) := by decide

theorem encodeCredentials_eq (credentials : Credentials) :
    encodeCredentials credentials =
      credentialsOrder.filterMap ((credentialsFields credentials)[·]?) := rfl

def credentialsFormat : Format Credentials where
  size _ := credentialsSize
  stores := encodeCredentials
  image credentials := credentialsFields credentials ++ [.zeros 72 8]
  fills credentials :=
    (fills_credentials credentials).reorder credentialsOrder credentialsOrder_perm
      (encodeCredentials_eq credentials)

theorem held_credentials {memory : Memory} {credentials : Credentials} :
    Held memory (credentialsFormat.image credentials) ↔
      decodeCredentials memory = credentials ∧ loadU64 memory 72 = 0 := by
  obtain ⟨⟩ := credentials
  simp only [credentialsFormat, credentialsFields, cons_append, nil_append, held_cons,
    held_nil, holds_storeU32_iff, holds_storeU64_iff, holds_zeros_iff64, and_true,
    decodeCredentials, Credentials.mk.injEq, and_assoc]

/-- What a valid response is. -/
structure Response.Valid (response : Response) : Prop where
  opcode : opcodeValid response.opcode = true
  generation : response.generation ≠ 0
  sequence : response.sequence ≠ 0
  result : -4095 ≤ response.result.toInt
  dataLength : responseSize + response.dataLength.toNat < 2 ^ 64
  failed : response.result.toInt < 0 →
    response.handle = 0 ∧ response.dataLength = 0 ∧ response.service = 0

theorem responseValid_iff {response : Response} :
    responseValid response = true ↔ response.Valid := by
  have hlength : response.dataLength ≤ uint64Max - 64 ↔
      responseSize + response.dataLength.toNat < 2 ^ 64 := by
    rw [UInt64.le_iff_toNat_le]
    show response.dataLength.toNat ≤ 2 ^ 64 - 1 - 64 ↔ 64 + response.dataLength.toNat < 2 ^ 64
    omega
  have hresult : -4095 ≤ response.result ↔ -4095 ≤ response.result.toInt := Int64.le_iff_toInt_le
  have hfailed : 0 ≤ response.result ↔ ¬response.result.toInt < 0 :=
    Int64.le_iff_toInt_le.trans Int.not_lt.symm
  simp only [responseValid, Bool.and_eq_true, Bool.or_eq_true, bne_iff_ne, beq_iff_eq,
    decide_eq_true_eq, hlength, hresult, hfailed]
  rw [← imp_iff_not_or]
  constructor
  · intro ⟨⟨⟨⟨⟨hopcode, hgeneration⟩, hsequence⟩, hresult⟩, hlength⟩, hfailed⟩
    exact ⟨hopcode, hgeneration, hsequence, hresult, hlength, fun h =>
      ⟨(hfailed h).1.1, (hfailed h).1.2, (hfailed h).2⟩⟩
  · intro h
    exact ⟨⟨⟨⟨⟨h.opcode, h.generation⟩, h.sequence⟩, h.result⟩, h.dataLength⟩, fun hnegative =>
      ⟨⟨(h.failed hnegative).1, (h.failed hnegative).2.1⟩, (h.failed hnegative).2.2⟩⟩

section Codec
variable {bytes result : List UInt8} {response : Response} {credentials : Credentials}

theorem responseEncode_eq_some :
    responseEncode bytes response = some result ↔
      response.Valid ∧ responseSize ≤ bytes.length ∧
        result = responseFormat.emit bytes response := by
  rw [responseEncode, ite_none_left_eq_some, some.injEq, not_or, Nat.not_lt,
    Bool.not_eq_false, responseValid_iff, eq_comm (b := result), and_comm (a := responseSize ≤ _), and_assoc]
  rfl

theorem responseDecode_eq_some :
    responseDecode bytes = some response ↔
      response.Valid ∧ bytes.length = responseSize + response.dataLength.toNat ∧
        responseFormat.Represents (bytes.take responseSize) response := by
  rw [show responseSize = responseFormat.size response from rfl, Format.represents_take_iff,
    held_response]
  unfold responseDecode
  dsimp only
  constructor
  · intro h
    split_ifs at h with hbad hinvalid
    simp only [not_or, Nat.not_lt, not_not, Bool.not_eq_false] at hbad hinvalid
    obtain rfl := some.inj h
    refine ⟨responseValid_iff.mp hinvalid.1, ?_, hbad.1, hbad.2.1, rfl, hbad.2.2⟩
    rw [hinvalid.2]
    exact (Nat.add_sub_cancel' hbad.1).symm
  · intro ⟨hvalid, hlength, hsize, habi, hfields, hreserved⟩
    subst hfields
    have hdata : (decodeResponse (ofList bytes)).dataLength.toNat = bytes.length - responseSize := by
      rw [hlength]
      exact (Nat.add_sub_cancel_left ..).symm
    rw [if_neg, if_neg]
    · simp only [not_or, not_not, Bool.not_eq_false]
      exact ⟨responseValid_iff.mpr hvalid, hdata⟩
    · simp only [not_or, Nat.not_lt, not_not, Bool.not_eq_false]
      exact ⟨hsize, habi, hreserved⟩

theorem credentialsEncode_eq_some :
    credentialsEncode bytes credentials = some result ↔
      umaskValid credentials.umask = true ∧ credentialsSize ≤ bytes.length ∧
        result = credentialsFormat.emit bytes credentials := by
  rw [credentialsEncode, ite_none_left_eq_some, some.injEq, not_or, Nat.not_lt,
    Bool.not_eq_false, eq_comm (b := result), and_comm (a := credentialsSize ≤ _), and_assoc]
  rfl

theorem credentialsDecode_eq_some :
    credentialsDecode bytes = some credentials ↔
      umaskValid credentials.umask = true ∧ credentialsFormat.Represents bytes credentials := by
  have hrepresents : credentialsFormat.Represents bytes credentials ↔
      bytes.length = credentialsSize ∧ decodeCredentials (ofList bytes) = credentials ∧
        loadU64 (ofList bytes) 72 = 0 := by
    rw [← held_credentials]
    exact Format.represents_iff
  rw [hrepresents, credentialsDecode]
  dsimp only
  constructor
  · intro h
    split_ifs at h with hbad humask
    simp only [not_or, not_not, Bool.not_eq_false] at hbad humask
    obtain rfl := some.inj h
    exact ⟨humask, hbad.1, rfl, hbad.2⟩
  · intro ⟨humask, hsize, hfields, hreserved⟩
    subst hfields
    rw [if_neg, if_neg]
    · rw [Bool.not_eq_false]
      exact humask
    · simp only [not_or, not_not]
      exact ⟨hsize, hreserved⟩

end Codec

/-- Both codecs are exact: what is encoded decodes, with any data behind a response, and what is
decoded was encoded. -/
theorem response_credentials_exact :
    (∀ (buffer : List UInt8) (response : Response),
      (responseEncode buffer response).isSome ↔ responseSize ≤ buffer.length ∧ response.Valid) ∧
    (∀ (buffer : List UInt8) (response : Response) (result data : List UInt8),
      responseEncode buffer response = some result → data.length = response.dataLength.toNat →
        responseDecode (result.take responseSize ++ data) = some response) ∧
    (∀ (bytes : List UInt8) (response : Response), responseDecode bytes = some response →
      bytes.length = responseSize + response.dataLength.toNat ∧
      (response.result.toInt < 0 →
        response.handle = 0 ∧ response.dataLength = 0 ∧ response.service = 0) ∧
      ∀ buffer : List UInt8, responseSize ≤ buffer.length →
        ∃ result, responseEncode buffer response = some result ∧
          bytes.take responseSize = result.take responseSize) ∧
    ∀ (bytes : List UInt8) (credentials : Credentials),
      credentialsDecode bytes = some credentials ↔
        ∃ buffer result, credentialsEncode buffer credentials = some result ∧
          bytes = result.take credentialsSize := by
  refine ⟨fun buffer response => ?_, fun buffer response result data hencode hdata => ?_,
    fun bytes response hdecode => ?_, fun bytes credentials => ?_⟩
  · simp only [isSome_iff_exists, responseEncode_eq_some]
    exact ⟨fun ⟨_, hvalid, hsize, _⟩ => ⟨hsize, hvalid⟩, fun ⟨hsize, hvalid⟩ =>
      ⟨_, hvalid, hsize, rfl⟩⟩
  · obtain ⟨hvalid, hsize, rfl⟩ := responseEncode_eq_some.mp hencode
    have hrepresents : responseFormat.Represents
        ((responseFormat.emit buffer response).take responseSize) response :=
      (Format.emit_take_iff hsize).mp rfl
    have hheader : ((responseFormat.emit buffer response).take responseSize).length =
        responseSize := hrepresents.size
    refine responseDecode_eq_some.mpr ⟨hvalid, ?_, ?_⟩
    · rw [length_append, hheader, hdata]
    · rw [take_left' hheader]
      exact hrepresents
  · obtain ⟨hvalid, hlength, hrepresents⟩ := responseDecode_eq_some.mp hdecode
    refine ⟨hlength, hvalid.failed, fun buffer hsize => ?_⟩
    exact ⟨_, responseEncode_eq_some.mpr ⟨hvalid, hsize, rfl⟩,
      ((Format.emit_take_iff hsize).mpr hrepresents).symm⟩
  · rw [credentialsDecode_eq_some]
    constructor
    · intro ⟨humask, hrepresents⟩
      have hsize : credentialsSize ≤ bytes.length := Nat.le_of_eq hrepresents.size.symm
      exact ⟨bytes, _, credentialsEncode_eq_some.mpr ⟨humask, hsize, rfl⟩,
        ((Format.emit_take_iff hsize).mpr hrepresents).symm⟩
    · intro ⟨buffer, result, hencode, hbytes⟩
      obtain ⟨humask, hsize, rfl⟩ := credentialsEncode_eq_some.mp hencode
      exact ⟨humask, (Format.emit_take_iff hsize).mp hbytes.symm⟩

end Kobox.Filesystem
