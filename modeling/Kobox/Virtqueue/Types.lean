import Kobox.Library.LittleEndian
import Kobox.Library.Resumption
import Kobox.Protocol.Channel
import Mathlib.Logic.Function.Basic

/-!
# Virtqueue engine: data (`protocol/include/kobox2/virtqueue.h`)

A queue object is split into what `kb2_vq_bind` fixes (`Binding`) and what the operations change
(`Vq`). Chains are caller-owned objects that the engine knows by pointer, so a `State` holds them by
identity. Shared memory is reached only through the callbacks of `kb2_vq_memory_t`: an operation is a
program that asks for them one at a time, each request labelled with the private state there.
-/

namespace Kobox.Virtqueue
open Protocol Resumption

inductive Status where
  | ok
  | empty
  | full
  | invalid
  | stale
  | faulted
  | io
  deriving DecidableEq, Repr

inductive Side where
  | driver
  | device
  deriving DecidableEq, Repr

/-- The private states of a chain (`virtqueue.c:7`). -/
inductive ChainState where
  | free
  | submitted
  | accepted
  | returned
  deriving DecidableEq, Repr

structure Segment where
  address : UInt64
  length : UInt32
  descriptor : UInt16
  writable : UInt16
  deriving DecidableEq, Repr

/-- `kb2_vq_chain_t`. The caller's segment array is `none` when the pointer is
NULL, and its `capacity` is its length; `readable`, `writable` and `written` are
sums of at most 32768 lengths of 32 bits and never reach the width of their
`uint64_t`. -/
structure Chain where
  segments : Option (List Segment)
  count : ℕ
  head : UInt16
  indirect : UInt64
  indirectLength : UInt32
  indirectDescriptor : UInt16
  indirectFirst : ℕ
  readable : ℕ
  writable : ℕ
  written : ℕ
  usedLength : UInt32
  state : ChainState
  deriving DecidableEq, Repr

def Chain.storage (c : Chain) : List Segment := c.segments.getD []

def Chain.capacity (c : Chain) : ℕ := c.storage.length

def Chain.segs (c : Chain) : List Segment := c.storage.take c.count

/-- Segments in the main table; the later ones are in the indirect table. -/
def Chain.directCount (c : Chain) : ℕ := if c.indirectLength ≠ 0 then c.indirectFirst else c.count

/-- A chain object's identity: the pointers the engine compares. -/
abbrev ChainId := ℕ

/-- `kb2_vq_channel_t` without its fault flag. -/
structure ChannelModel where
  identity : Protocol.Channel
  queues : List Queue
  regions : List Region

/-- The fields of `kb2_vq_t` that `kb2_vq_bind` sets and no operation changes. -/
structure Binding where
  channel : ChannelModel
  queue : Queue
  payloadAllowed : UInt32 → UInt64 → UInt64 → UInt32 → Bool
  side : Side

/-- The fields of `kb2_vq_t` that the operations change. -/
structure Vq where
  slots : ℕ → Option ChainId
  lastTaken : Option ChainId
  descriptorOwner : ℕ → UInt16
  produced : UInt16
  consumed : UInt16
  owned : ℕ

/-- A queue object, the chain objects its caller has, and the channel's flag. -/
structure State where
  vq : Vq
  chains : ChainId → Chain
  faulted : Bool

def State.setChain (s : State) (id : ChainId) (c : Chain) : State :=
  { s with chains := Function.update s.chains id c }

/-- What `memset` leaves in the two caller arrays and the zeroed candidate. -/
def Vq.fresh : Vq where
  slots _ := none
  lastTaken := none
  descriptorOwner _ := 0
  produced := 0
  consumed := 0
  owned := 0

inductive MemoryCall where
  | read (address : UInt64) (size : ℕ)
  | write (address : UInt64) (bytes : List UInt8)
  | loadAcquire (address : UInt64)
  | storeRelease (address : UInt64) (value : UInt16)
  | fence
  deriving DecidableEq

/-- A failing callback answers `none` or `false`. -/
def MemoryCall.Answer : MemoryCall → Type
  | .read _ size => Option { bytes : List UInt8 // bytes.length = size }
  | .write _ _ => Bool
  | .loadAcquire _ => Option UInt16
  | .storeRelease _ _ => Bool
  | .fence => Unit

/-- One callback, with the private state from which it is made. -/
structure Access where
  state : State
  call : MemoryCall

/-- What an operation stores through its out pointer. -/
inductive Out where
  | nothing
  | flag (value : Bool)
  | chain (id : ChainId)
  | bytes (value : List UInt8)
  deriving DecidableEq, Repr

structure Reply where
  status : Status
  out : Out
  deriving DecidableEq, Repr

abbrev Op (α : Type) := Program Access (fun a => a.call.Answer) α

abbrev Outcome := Reply × State

def finish (status : Status) (s : State) : Op Outcome := .done (⟨status, .nothing⟩, s)

/-! ### Byte order (`virtqueue.c:10-36`) -/

def byteAt (p : List UInt8) (i : ℕ) : UInt8 := p[i]?.getD 0

def readU16 (p : List UInt8) : UInt16 := (byteAt p 0).toUInt16 ||| (byteAt p 1).toUInt16 <<< 8

def readU32 (p : List UInt8) : UInt32 :=
  (readU16 p).toUInt32 ||| (readU16 (p.drop 2)).toUInt32 <<< 16

def readU64 (p : List UInt8) : UInt64 :=
  (readU32 p).toUInt64 ||| (readU32 (p.drop 4)).toUInt64 <<< 32

def writeU16 (v : UInt16) : List UInt8 := [v.toUInt8, (v >>> 8).toUInt8]

def writeU32 (v : UInt32) : List UInt8 := writeU16 v.toUInt16 ++ writeU16 (v >>> 16).toUInt16

def writeU64 (v : UInt64) : List UInt8 := writeU32 v.toUInt32 ++ writeU32 (v >>> 32).toUInt32

/-! ### Descriptors (`virtqueue.c:8`) -/

def descSize : ℕ := 16
def descNext : UInt16 := 1
def descWrite : UInt16 := 2
def descIndirect : UInt16 := 4

def descriptorBytes (address : UInt64) (length : UInt32) (flags next : UInt16) : List UInt8 :=
  writeU64 address ++ writeU32 length ++ writeU16 flags ++ writeU16 next

def descriptorAt (table : UInt64) (index : UInt16) : UInt64 :=
  table + index.toUInt64 * UInt64.ofNat descSize

end Kobox.Virtqueue
