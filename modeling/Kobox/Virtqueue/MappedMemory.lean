import Kobox.Library.Format
import Kobox.Library.Listing
import Kobox.Library.Scan
import Kobox.Library.Windows
import Kobox.Protocol.Geometry
import Kobox.Virtqueue.FailStop

/-!
# Mapped memory (`protocol/src/virtqueue_memory.c`)

The backend of the host keeps private mappings of the transport addresses, and arenas that say
which of them a lane may use for its payloads. Pointers and `size_t` have 64 bits.
-/

namespace Kobox.Virtqueue
open ByteMemory Protocol Resumption List

structure Mapping where
  transportBase : UInt64
  length : UInt64
  address : UInt64
  localRights : UInt32
  deriving DecidableEq, Repr

structure Arena where
  queueId : UInt32
  rights : UInt32
  transportBase : UInt64
  length : UInt64
  deriving DecidableEq, Repr

structure MappedMemory where
  mappings : List Mapping
  arenas : List Arena
  deriving DecidableEq, Repr

namespace MappedMemory

def validRights (rights : UInt32) : Bool :=
  rights != 0 && rights &&& ~~~(regionRightRead ||| regionRightWrite) == 0

/-- The test of this file, which does not leave out empty ranges. -/
def overlaps (a sizeA b sizeB : UInt64) : Bool := a < b + sizeB && b < a + sizeA

def resolveIn (address size : UInt64) (rights : UInt32) (mapping : Mapping) : Option UInt64 :=
  if address < mapping.transportBase ∨ mapping.localRights &&& rights ≠ rights then none
  else
    let offset := address - mapping.transportBase
    if offset ≤ mapping.length ∧ size ≤ mapping.length - offset then
      some (mapping.address + offset)
    else none

def resolve (memory : MappedMemory) (address size : UInt64) (rights : UInt32) : Option UInt64 :=
  memory.mappings.findSome? (resolveIn address size rights)

/-- A mapping is refused for itself or for one of the earlier ones. -/
def mappingValid (earlier : List Mapping) (mapping : Mapping) : Bool :=
  !(mapping.address == 0 || mapping.length == 0 ||
      uint64Max - mapping.length < mapping.transportBase ||
      uint64Max - mapping.length < mapping.address || !validRights mapping.localRights) &&
    earlier.all fun other =>
      !(overlaps mapping.transportBase mapping.length other.transportBase other.length ||
        overlaps mapping.address mapping.length other.address other.length)

def registered (mappings : List Mapping) (arena : Arena) : Bool :=
  mappings.any fun mapping => mapping.transportBase ≤ arena.transportBase &&
    arena.transportBase + arena.length ≤ mapping.transportBase + mapping.length

def arenaValid (mappings : List Mapping) (earlier : List Arena) (arena : Arena) : Bool :=
  !(arena.queueId == 0 || arena.length == 0 || uint64Max - arena.length < arena.transportBase ||
      !validRights arena.rights) &&
    registered mappings arena &&
    earlier.all fun other =>
      !overlaps arena.transportBase arena.length other.transportBase other.length

/-- `kb2_vq_mapped_memory_init`. `arguments` is the part of the first test that asks for the
pointers and the atomic operations. -/
def init (arguments : Bool) (mappings : List Mapping) (arenas : List Arena) :
    Except Status MappedMemory :=
  if arguments = false ∨ mappings = [] ∨ arenas = [] then .error .invalid
  else if !mappings.zipIdx.all fun (mapping, i) => mappingValid (mappings.take i) mapping then
    .error .invalid
  else if !arenas.zipIdx.all fun (arena, i) => arenaValid mappings (arenas.take i) arena then
    .error .invalid
  else .ok ⟨mappings, arenas⟩

def payloadAllowed (memory : MappedMemory) (queueId : UInt32) (address size : UInt64)
    (rights : UInt32) : Bool :=
  if size = 0 ∨ uint64Max - size < address then false
  else
    memory.arenas.any fun arena =>
      arena.queueId == queueId && arena.rights &&& rights == rights &&
        arena.transportBase ≤ address && address + size ≤ arena.transportBase + arena.length

def readBytes (memory : MappedMemory) (native : Memory) (address : UInt64) (size : ℕ) :
    Option { bytes : List UInt8 // bytes.length = size } :=
  (memory.resolve address (.ofNat size) regionRightRead).map fun source =>
    ⟨read native source.toNat size, read_length native _ _⟩

def writeBytes (memory : MappedMemory) (native : Memory) (address : UInt64)
    (bytes : List UInt8) : Bool × Memory :=
  match memory.resolve address (.ofNat bytes.length) regionRightWrite with
  | none => (false, native)
  | some destination => (true, write native destination.toNat bytes)

/-- The atomic operations of the architecture store an index in little-endian order. -/
def loadIndex (memory : MappedMemory) (native : Memory) (address : UInt64) : Option UInt16 :=
  match memory.resolve address 2 regionRightRead with
  | none => none
  | some source =>
    if address &&& 1 ≠ 0 ∨ source &&& 1 ≠ 0 then none
    else some (readU16 (read native source.toNat 2))

def storeIndex (memory : MappedMemory) (native : Memory) (address : UInt64) (value : UInt16) :
    Bool × Memory :=
  match memory.resolve address 2 regionRightWrite with
  | none => (false, native)
  | some destination =>
    if address &&& 1 ≠ 0 ∨ destination &&& 1 ≠ 0 then (false, native)
    else (true, write native destination.toNat (writeU16 value))

/-- `kb2_vq_mapped_memory_ops`, on the memory behind the pointers. -/
def ops (memory : MappedMemory) : (c : MemoryCall) → Memory → c.Answer × Memory
  | .read address size, native => (memory.readBytes native address size, native)
  | .write address bytes, native => memory.writeBytes native address bytes
  | .loadAcquire address, native => (memory.loadIndex native address, native)
  | .storeRelease address value, native => memory.storeIndex native address value
  | .fence, native => ((), native)

/-! ### What the initialization accepts -/

section Valid
variable {mapping : Mapping} {arena : Arena} {mappings : List Mapping} {arenas : List Arena}

def window (mapping : Mapping) : Window :=
  ⟨mapping.transportBase.toNat, mapping.address.toNat, mapping.length.toNat⟩

def arenaSpan (arena : Arena) : Span := ⟨arena.transportBase.toNat, arena.length.toNat⟩

/-- The demands on a mapping by itself. -/
structure MappingValid (mapping : Mapping) : Prop where
  address : mapping.address ≠ 0
  length : 0 < mapping.length.toNat
  transport_lt : mapping.transportBase.toNat + mapping.length.toNat < 2 ^ 64
  native_lt : mapping.address.toNat + mapping.length.toNat < 2 ^ 64
  rights : validRights mapping.localRights = true

/-- The demands on an arena by itself. -/
structure ArenaValid (arena : Arena) : Prop where
  queueId : arena.queueId ≠ 0
  length : 0 < arena.length.toNat
  transport_lt : arena.transportBase.toNat + arena.length.toNat < 2 ^ 64
  rights : validRights arena.rights = true

/-- The maps translate without ambiguity, and the arenas lie in them, apart from one another. -/
structure Valid (memory : MappedMemory) : Prop where
  mapping : ∀ mapping ∈ memory.mappings, MappingValid mapping
  windows : Window.Unambiguous (memory.mappings.map window)
  arena : ∀ arena ∈ memory.arenas, ArenaValid arena
  registered : ∀ arena ∈ memory.arenas, ∃ mapping ∈ memory.mappings,
    Span.Within (arenaSpan arena) (window mapping).span
  arenas : memory.arenas.Pairwise fun a b => Span.Apart (arenaSpan a) (arenaSpan b)

theorem overlaps_eq : overlaps = rangesOverlap := rfl

theorem range_iff (base length : UInt64) :
    (length ≠ 0 ∧ ¬uint64Max - length < base) ↔
      0 < length.toNat ∧ base.toNat + length.toNat < 2 ^ 64 := by
  rw [← u64RangeValid_iff, u64RangeValid, Bool.and_eq_true, bne_iff_ne, decide_eq_true_eq,
    UInt64.not_lt]

theorem mappingValid_iff (earlier : List Mapping) (mapping : Mapping) :
    mappingValid earlier mapping = true ↔ MappingValid mapping ∧ ∀ other ∈ earlier,
      rangesOverlap mapping.transportBase mapping.length other.transportBase other.length = false ∧
        rangesOverlap mapping.address mapping.length other.address other.length = false := by
  simp only [mappingValid, Bool.and_eq_true, Bool.not_eq_true', Bool.or_eq_false_iff,
    beq_eq_false_iff_ne, decide_eq_false_iff_not, Bool.not_eq_false', all_eq_true, overlaps_eq]
  refine and_congr_left' ?_
  have htransport := range_iff mapping.transportBase mapping.length
  have hnative := range_iff mapping.address mapping.length
  constructor
  · intro ⟨⟨⟨⟨haddress, hlength⟩, hbase⟩, hend⟩, hrights⟩
    exact ⟨haddress, (htransport.mp ⟨hlength, hbase⟩).1, (htransport.mp ⟨hlength, hbase⟩).2,
      (hnative.mp ⟨hlength, hend⟩).2, hrights⟩
  · intro h
    obtain ⟨hlength, hbase⟩ := htransport.mpr ⟨h.length, h.transport_lt⟩
    exact ⟨⟨⟨⟨h.address, hlength⟩, hbase⟩, (hnative.mpr ⟨h.length, h.native_lt⟩).2⟩, h.rights⟩

theorem registered_iff (hmappings : ∀ mapping ∈ mappings, MappingValid mapping)
    (harena : ArenaValid arena) :
    registered mappings arena = true ↔
      ∃ mapping ∈ mappings, Span.Within (arenaSpan arena) (window mapping).span := by
  rw [registered, any_eq_true]
  refine exists_congr fun mapping => and_congr_right fun hmapping => ?_
  rw [Bool.and_eq_true, decide_eq_true_eq, decide_eq_true_eq, UInt64.le_iff_toNat_le,
    UInt64.le_iff_toNat_le, toNat_add_of_lt harena.transport_lt,
    toNat_add_of_lt (hmappings mapping hmapping).transport_lt]
  exact Iff.rfl

theorem arenaValid_iff (mappings : List Mapping) (earlier : List Arena) (arena : Arena) :
    arenaValid mappings earlier arena = true ↔
      (ArenaValid arena ∧ registered mappings arena = true) ∧ ∀ other ∈ earlier,
        rangesOverlap arena.transportBase arena.length other.transportBase other.length =
          false := by
  simp only [arenaValid, Bool.and_eq_true, Bool.not_eq_true', Bool.or_eq_false_iff,
    beq_eq_false_iff_ne, decide_eq_false_iff_not, Bool.not_eq_false', all_eq_true, overlaps_eq]
  refine and_congr_left' (and_congr_left' ?_)
  have hrange := range_iff arena.transportBase arena.length
  constructor
  · intro ⟨⟨⟨hqueue, hlength⟩, hbase⟩, hrights⟩
    exact ⟨hqueue, (hrange.mp ⟨hlength, hbase⟩).1, (hrange.mp ⟨hlength, hbase⟩).2, hrights⟩
  · intro h
    obtain ⟨hlength, hbase⟩ := hrange.mpr ⟨h.length, h.transport_lt⟩
    exact ⟨⟨⟨h.queueId, hlength⟩, hbase⟩, h.rights⟩

theorem mappings_apart_iff (h : ∀ mapping ∈ mappings, MappingValid mapping) :
    (mappings.Pairwise fun other mapping =>
      rangesOverlap mapping.transportBase mapping.length other.transportBase other.length = false ∧
        rangesOverlap mapping.address mapping.length other.address other.length = false) ↔
      Window.Unambiguous (mappings.map window) := by
  have hpair : ∀ {other mapping}, other ∈ mappings → mapping ∈ mappings →
      (rangesOverlap mapping.transportBase mapping.length other.transportBase other.length = false ∧
        rangesOverlap mapping.address mapping.length other.address other.length = false ↔
      Span.Apart (window other).span (window mapping).span ∧
        Span.Apart (window other).targetSpan (window mapping).targetSpan) := by
    intro other mapping hother hmapping
    have hother := h other hother
    have hmapping := h mapping hmapping
    rw [rangesOverlap_eq_false_iff hmapping.length hother.length hmapping.transport_lt
        hother.transport_lt,
      rangesOverlap_eq_false_iff hmapping.length hother.length hmapping.native_lt hother.native_lt,
      Span.apart_comm, Span.apart_comm (t := ⟨other.address.toNat, _⟩)]
    exact Iff.rfl
  rw [List.Pairwise.iff_of_mem hpair, pairwise_and_iff]
  constructor
  · intro ⟨hsources, htargets⟩
    exact ⟨pairwise_map.mpr hsources, pairwise_map.mpr htargets⟩
  · intro hwindows
    have hsources := hwindows.sources
    have htargets := hwindows.targets
    rw [pairwise_map] at hsources htargets
    exact ⟨hsources, htargets⟩

theorem arenas_apart_iff (h : ∀ arena ∈ arenas, ArenaValid arena) :
    (arenas.Pairwise fun other arena =>
      rangesOverlap arena.transportBase arena.length other.transportBase other.length = false) ↔
      arenas.Pairwise fun a b => Span.Apart (arenaSpan a) (arenaSpan b) := by
  refine List.Pairwise.iff_of_mem fun {other arena} hother harena => ?_
  have hother := h other hother
  have harena := h arena harena
  rw [rangesOverlap_eq_false_iff harena.length hother.length harena.transport_lt
    hother.transport_lt, Span.apart_comm]
  exact Iff.rfl

theorem init_eq_ok {arguments : Bool} {memory : MappedMemory} :
    init arguments mappings arenas = .ok memory ↔
      (arguments = true ∧ mappings ≠ [] ∧ arenas ≠ []) ∧ memory = ⟨mappings, arenas⟩ ∧
        memory.Valid := by
  have hmappings := Scan.all_earlier_iff (l := mappings) mappingValid_iff
  have harenas := Scan.all_earlier_iff (l := arenas) (arenaValid_iff mappings)
  rw [init, refuse_eq_ok, refuse_eq_ok, refuse_eq_ok, Bool.not_eq_true, Bool.not_eq_false',
    Bool.not_eq_true, Bool.not_eq_false', hmappings, harenas, Except.ok.injEq, not_or, not_or,
    Bool.not_eq_false, eq_comm (b := memory)]
  constructor
  · intro ⟨harguments, ⟨hmapping, hwindows⟩, ⟨harena, hapart⟩, hmemory⟩
    subst hmemory
    have hvalid : ∀ arena ∈ arenas, ArenaValid arena := fun arena h => (harena arena h).1
    exact ⟨harguments, rfl, hmapping, (mappings_apart_iff hmapping).mp hwindows, hvalid,
      fun arena h => (registered_iff hmapping (hvalid arena h)).mp (harena arena h).2,
      (arenas_apart_iff hvalid).mp hapart⟩
  · intro ⟨harguments, hmemory, hvalid⟩
    subst hmemory
    refine ⟨harguments, ⟨hvalid.mapping, (mappings_apart_iff hvalid.mapping).mpr hvalid.windows⟩,
      ⟨fun arena h => ⟨hvalid.arena arena h, ?_⟩,
        (arenas_apart_iff hvalid.arena).mpr hvalid.arenas⟩, rfl⟩
    exact (registered_iff hvalid.mapping (hvalid.arena arena h)).mpr (hvalid.registered arena h)

end Valid

section Resolve
variable {memory : MappedMemory} {mapping : Mapping} {address size native : UInt64}
  {rights : UInt32}

theorem inside_iff {base length : UInt64} (hbase : base ≤ address) :
    (address - base ≤ length ∧ size ≤ length - (address - base)) ↔
      address.toNat + size.toNat ≤ base.toNat + length.toNat := by
  have hle := UInt64.le_iff_toNat_le.mp hbase
  have hoffset := UInt64.toNat_sub_of_le _ _ hbase
  constructor
  · intro ⟨hin, hsize⟩
    rw [UInt64.le_iff_toNat_le, UInt64.toNat_sub_of_le _ _ hin] at hsize
    rw [UInt64.le_iff_toNat_le] at hin
    omega
  · intro hend
    have hin : address - base ≤ length := by
      rw [UInt64.le_iff_toNat_le]
      omega
    refine ⟨hin, ?_⟩
    rw [UInt64.le_iff_toNat_le, UInt64.toNat_sub_of_le _ _ hin]
    omega

theorem resolveIn_eq_some (h : MappingValid mapping) :
    resolveIn address size rights mapping = some native ↔
      mapping.localRights &&& rights = rights ∧
        Span.Within ⟨address.toNat, size.toNat⟩ (window mapping).span ∧
          native.toNat = ((window mapping).place ⟨address.toNat, size.toNat⟩).base := by
  simp only [resolveIn, Option.ite_none_left_eq_some, Option.ite_none_right_eq_some, not_or,
    not_not, UInt64.not_lt, Option.some.injEq]
  -- The offset is inside the mapping, so that the pointer does not wrap either.
  have hpointer : mapping.transportBase ≤ address →
      address.toNat + size.toNat ≤ mapping.transportBase.toNat + mapping.length.toNat →
      (mapping.address + (address - mapping.transportBase)).toNat =
        mapping.address.toNat + (address.toNat - mapping.transportBase.toNat) := by
    intro hbase hend
    have hnative := h.native_lt
    have hoffset := UInt64.toNat_sub_of_le _ _ hbase
    rw [← hoffset]
    exact toNat_add_of_lt (by omega)
  constructor
  · intro ⟨⟨hbase, hrights⟩, hin, hnative⟩
    have hend := (inside_iff hbase).mp hin
    exact ⟨hrights, ⟨UInt64.le_iff_toNat_le.mp hbase, hend⟩, hnative ▸ hpointer hbase hend⟩
  · intro ⟨hrights, ⟨hle, hend⟩, hnative⟩
    have hbase : mapping.transportBase ≤ address := UInt64.le_iff_toNat_le.mpr hle
    refine ⟨⟨hbase, hrights⟩, (inside_iff hbase).mpr hend, ?_⟩
    rw [← UInt64.toNat_inj, hnative]
    exact hpointer hbase hend

variable (h : memory.Valid)
include h

theorem Valid.resolve_place (hresolve : memory.resolve address size rights = some native) :
    ∃ w ∈ memory.mappings.map window, Span.Within ⟨address.toNat, size.toNat⟩ w.span ∧
      ⟨native.toNat, size.toNat⟩ = w.place ⟨address.toNat, size.toNat⟩ := by
  obtain ⟨mapping, hmapping, hfound⟩ := exists_of_findSome?_eq_some hresolve
  obtain ⟨-, hwithin, hnative⟩ := (resolveIn_eq_some (h.mapping mapping hmapping)).mp hfound
  refine ⟨window mapping, mem_map_of_mem hmapping, hwithin, ?_⟩
  rw [hnative]
  rfl

theorem Valid.index_unique {s : Span} (hsize : s.size ≠ 0) {i j : ℕ} {mapping mapping' : Mapping}
    (hi : memory.mappings[i]? = some mapping) (hj : memory.mappings[j]? = some mapping')
    (hwithin : Span.Within s (window mapping).span)
    (hwithin' : Span.Within s (window mapping').span) : i = j := by
  refine h.windows.index_unique ?_ ?_ hsize hwithin hwithin'
  · rw [getElem?_map, hi]
    rfl
  · rw [getElem?_map, hj]
    rfl

theorem Valid.resolveIn_unique (hsize : size ≠ 0) {i j : ℕ} {mapping mapping' : Mapping}
    {native native' : UInt64} {rights' : UInt32} (hi : memory.mappings[i]? = some mapping)
    (hj : memory.mappings[j]? = some mapping')
    (hresolve : resolveIn address size rights mapping = some native)
    (hresolve' : resolveIn address size rights' mapping' = some native') : i = j := by
  have hvalid := h.mapping _ (mem_of_getElem? hi)
  have hvalid' := h.mapping _ (mem_of_getElem? hj)
  obtain ⟨-, hwithin, -⟩ := (resolveIn_eq_some hvalid).mp hresolve
  obtain ⟨-, hwithin', -⟩ := (resolveIn_eq_some hvalid').mp hresolve'
  have hnonempty : size.toNat ≠ 0 := fun hzero => hsize (UInt64.toNat_inj.mp hzero)
  exact h.index_unique hnonempty hi hj hwithin hwithin'

theorem Valid.resolve_perm (hsize : size ≠ 0) {mappings : List Mapping}
    (hperm : memory.mappings.Perm mappings) :
    resolve { memory with mappings } address size rights = memory.resolve address size rights := by
  refine Listing.findSome?_perm hperm fun mapping hmapping mapping' hmapping' a b ha hb => ?_
  obtain ⟨i, hi⟩ := mem_iff_getElem?.mp hmapping
  obtain ⟨j, hj⟩ := mem_iff_getElem?.mp hmapping'
  have hindex := h.resolveIn_unique hsize hi hj ha hb
  rw [hindex, hj, Option.some.injEq] at hi
  rw [hi, ha, Option.some.injEq] at hb
  exact hb

theorem Valid.resolve_apart {address' size' native' : UInt64} {rights' : UInt32}
    (hresolve : memory.resolve address size rights = some native)
    (hresolve' : memory.resolve address' size' rights' = some native')
    (hapart : Span.Apart ⟨address.toNat, size.toNat⟩ ⟨address'.toNat, size'.toNat⟩) :
    Span.Apart ⟨native.toNat, size.toNat⟩ ⟨native'.toNat, size'.toNat⟩ := by
  obtain ⟨w, hw, hwithin, hplace⟩ := h.resolve_place hresolve
  obtain ⟨w', hw', hwithin', hplace'⟩ := h.resolve_place hresolve'
  rw [hplace, hplace']
  exact h.windows.place_apart hw hw' hwithin hwithin' hapart

end Resolve

section Lanes
variable {memory : MappedMemory} {queueId : UInt32} {address size : UInt64} {rights : UInt32}

theorem Valid.payloadAllowed_iff (h : memory.Valid) :
    memory.payloadAllowed queueId address size rights = true ↔
      (0 < size.toNat ∧ address.toNat + size.toNat < 2 ^ 64) ∧
        ∃ arena ∈ memory.arenas, arena.queueId = queueId ∧ arena.rights &&& rights = rights ∧
          Span.Within ⟨address.toNat, size.toNat⟩ (arenaSpan arena) := by
  have hrange := range_iff address size
  rw [payloadAllowed]
  split_ifs with hbad
  · simp only [false_iff, not_and]
    intro hok
    obtain ⟨hsize, hend⟩ := hrange.mpr hok
    exact absurd hbad (not_or.mpr ⟨hsize, hend⟩)
  · have hok := hrange.mp (not_or.mp hbad)
    rw [and_iff_right hok, any_eq_true]
    refine exists_congr fun arena => and_congr_right fun harena => ?_
    rw [Bool.and_eq_true, Bool.and_eq_true, Bool.and_eq_true, beq_iff_eq, beq_iff_eq,
      decide_eq_true_eq, decide_eq_true_eq, UInt64.le_iff_toNat_le, UInt64.le_iff_toNat_le,
      toNat_add_of_lt hok.2, toNat_add_of_lt (h.arena arena harena).transport_lt, and_assoc,
      and_assoc]
    exact Iff.rfl

theorem Valid.allowed_mapping (h : memory.Valid)
    (hallowed : memory.payloadAllowed queueId address size rights = true) :
    ∃! mapping, mapping ∈ memory.mappings ∧
      Span.Within ⟨address.toNat, size.toNat⟩ (window mapping).span := by
  obtain ⟨⟨hsize, -⟩, arena, harena, -, -, hwithin⟩ := h.payloadAllowed_iff.mp hallowed
  obtain ⟨mapping, hmapping, hregistered⟩ := h.registered arena harena
  refine ⟨mapping, ⟨hmapping, hwithin.trans hregistered⟩, fun other ⟨hother, hwithin'⟩ => ?_⟩
  obtain ⟨i, hi⟩ := mem_iff_getElem?.mp hmapping
  obtain ⟨j, hj⟩ := mem_iff_getElem?.mp hother
  have hindex := h.index_unique (Nat.ne_of_gt hsize) hi hj (hwithin.trans hregistered) hwithin'
  rw [hindex, hj, Option.some.injEq] at hi
  exact hi

theorem Valid.allowed_apart (h : memory.Valid) {queueId' rights' : UInt32}
    {address' size' : UInt64} (hqueue : queueId ≠ queueId')
    (hallowed : memory.payloadAllowed queueId address size rights = true)
    (hallowed' : memory.payloadAllowed queueId' address' size' rights' = true) :
    Span.Apart ⟨address.toNat, size.toNat⟩ ⟨address'.toNat, size'.toNat⟩ := by
  obtain ⟨-, arena, harena, hid, -, hwithin⟩ := h.payloadAllowed_iff.mp hallowed
  obtain ⟨-, arena', harena', hid', -, hwithin'⟩ := h.payloadAllowed_iff.mp hallowed'
  have hne : arena ≠ arena' := by
    intro heq
    rw [← hid, ← hid', heq] at hqueue
    exact hqueue rfl
  have : Std.Symm fun a b : Arena => Span.Apart (arenaSpan a) (arenaSpan b) :=
    ⟨fun _ _ hab => hab.symm⟩
  exact (List.Pairwise.forall h.arenas harena harena' hne).mono hwithin hwithin'

/-- A backend that passed `init` resolves a range through one mapping at most, whatever their
order; disjoint ranges stay disjoint in native memory; and what two queues may use is disjoint on
both sides. -/
theorem mapped_memory_isolating {arguments : Bool} {mappings : List Mapping}
    {arenas : List Arena} {memory : MappedMemory}
    (hinit : init arguments mappings arenas = .ok memory) :
    (∀ address size rights rights' (i j : ℕ) mapping mapping' native native', size ≠ 0 →
      memory.mappings[i]? = some mapping → memory.mappings[j]? = some mapping' →
      resolveIn address size rights mapping = some native →
      resolveIn address size rights' mapping' = some native' → i = j) ∧
    (∀ address size rights reordered, size ≠ 0 → memory.mappings.Perm reordered →
      resolve { memory with mappings := reordered } address size rights =
        memory.resolve address size rights) ∧
    (∀ address size rights native address' size' rights' native',
      memory.resolve address size rights = some native →
      memory.resolve address' size' rights' = some native' →
      Span.Apart ⟨address.toNat, size.toNat⟩ ⟨address'.toNat, size'.toNat⟩ →
      Span.Apart ⟨native.toNat, size.toNat⟩ ⟨native'.toNat, size'.toNat⟩) ∧
    (∀ queueId address size rights, memory.payloadAllowed queueId address size rights = true →
      address.toNat + size.toNat < 2 ^ 64 ∧
      (∃ arena ∈ memory.arenas, arena.queueId = queueId ∧ arena.rights &&& rights = rights ∧
        Span.Within ⟨address.toNat, size.toNat⟩ (arenaSpan arena)) ∧
      ∃! mapping, mapping ∈ memory.mappings ∧
        Span.Within ⟨address.toNat, size.toNat⟩ (window mapping).span) ∧
    ∀ queueId address size rights queueId' address' size' rights', queueId ≠ queueId' →
      memory.payloadAllowed queueId address size rights = true →
      memory.payloadAllowed queueId' address' size' rights' = true →
      Span.Apart ⟨address.toNat, size.toNat⟩ ⟨address'.toNat, size'.toNat⟩ ∧
      ∀ mapping ∈ memory.mappings, ∀ mapping' ∈ memory.mappings,
        Span.Within ⟨address.toNat, size.toNat⟩ (window mapping).span →
        Span.Within ⟨address'.toNat, size'.toNat⟩ (window mapping').span →
        Span.Apart ((window mapping).place ⟨address.toNat, size.toNat⟩)
          ((window mapping').place ⟨address'.toNat, size'.toNat⟩) := by
  obtain ⟨-, -, h⟩ := init_eq_ok.mp hinit
  refine ⟨?_, ?_, ?_, ?_, ?_⟩
  · intro address size rights rights' i j mapping mapping' native native' hsize hi hj hr hr'
    exact h.resolveIn_unique hsize hi hj hr hr'
  · intro address size rights reordered hsize hperm
    exact h.resolve_perm hsize hperm
  · intro address size rights native address' size' rights' native' hr hr' hapart
    exact h.resolve_apart hr hr' hapart
  · intro queueId address size rights hallowed
    obtain ⟨⟨-, hend⟩, harena⟩ := h.payloadAllowed_iff.mp hallowed
    exact ⟨hend, harena, h.allowed_mapping hallowed⟩
  · intro queueId address size rights queueId' address' size' rights' hqueue hallowed hallowed'
    have hapart := h.allowed_apart hqueue hallowed hallowed'
    refine ⟨hapart, fun mapping hmapping mapping' hmapping' hwithin hwithin' => ?_⟩
    exact h.windows.place_apart (mem_map_of_mem hmapping) (mem_map_of_mem hmapping')
      hwithin hwithin' hapart

end Lanes

namespace Sample

def paged : MappedMemory where
  mappings := [⟨0x1000, 0x1000, 0x700000, 3⟩, ⟨0x2000, 0x1000, 0x500000, 1⟩]
  arenas := [⟨1, 3, 0x1800, 0x800⟩, ⟨2, 1, 0x2000, 0x400⟩]

end Sample

theorem paged_isolating :
    init true Sample.paged.mappings Sample.paged.arenas = .ok Sample.paged ∧
      Sample.paged.resolve 0x1f00 0x100 2 = some 0x700f00 ∧
      resolve { Sample.paged with mappings := Sample.paged.mappings.reverse } 0x1f00 0x100 2 =
        some 0x700f00 ∧
      Span.Apart ⟨0x1f00, 0x100⟩ ⟨0x2000, 0x10⟩ ∧
      Span.Apart ⟨0x700f00, 0x100⟩ ⟨0x500000, 0x10⟩ := by
  have hinit : init true Sample.paged.mappings Sample.paged.arenas = .ok Sample.paged := rfl
  have hresolve : Sample.paged.resolve 0x1f00 0x100 2 = some 0x700f00 := by decide
  obtain ⟨-, hperm, -, -, hlanes⟩ := mapped_memory_isolating hinit
  have hreordered := hperm 0x1f00 0x100 2 _ (by decide) (reverse_perm Sample.paged.mappings).symm
  obtain ⟨htransport, hnative⟩ := hlanes 1 0x1f00 0x100 2 2 0x2000 0x10 1 (by decide) (by decide)
    (by decide)
  have hplaces := hnative ⟨0x1000, 0x1000, 0x700000, 3⟩ (by decide) ⟨0x2000, 0x1000, 0x500000, 1⟩
    (by decide) (by decide) (by decide)
  exact ⟨hinit, hresolve, hreordered.trans hresolve, htransport, hplaces⟩

section View
variable {memory : MappedMemory} {address : UInt64} {rights : UInt32}

def view (memory : MappedMemory) (native : Memory) : Memory :=
  Window.view (memory.mappings.map window) native

theorem Valid.read_view (h : memory.Valid) (native : Memory) {n : ℕ} (hn : n < 2 ^ 64)
    {source : UInt64} (hresolve : memory.resolve address (.ofNat n) rights = some source) :
    read native source.toNat n = read (memory.view native) address.toNat n := by
  obtain ⟨w, hw, hwithin, hplace⟩ := h.resolve_place hresolve
  rw [UInt64.toNat_ofNat_of_lt' hn] at hwithin hplace
  have hview := Window.read_view h.windows hw hwithin native
  rw [← hplace] at hview
  exact hview.symm

theorem Valid.view_write (h : memory.Valid) (native : Memory) (bytes : List UInt8)
    (hn : bytes.length < 2 ^ 64) {destination : UInt64}
    (hresolve : memory.resolve address (.ofNat bytes.length) rights = some destination) :
    memory.view (write native destination.toNat bytes) =
      write (memory.view native) address.toNat bytes := by
  obtain ⟨w, hw, hwithin, hplace⟩ := h.resolve_place hresolve
  rw [UInt64.toNat_ofNat_of_lt' hn] at hwithin hplace
  have hbase : destination.toNat = w.target + (address.toNat - w.base) :=
    congrArg Span.base hplace
  rw [hbase]
  exact Window.view_write h.windows hw hwithin native

theorem Valid.ops_view (h : memory.Valid) (c : MemoryCall) (hc : c.Sized) (native : Memory) :
    c.Refused (memory.ops c native).1 ∧ (memory.ops c native).2 = native ∨
      c.exec (memory.view native) =
        ((memory.ops c native).1, memory.view (memory.ops c native).2) := by
  cases c with
  | read address size =>
    simp only [ops, readBytes, MemoryCall.exec, MemoryCall.Refused]
    cases hresolve : memory.resolve address (.ofNat size) regionRightRead with
    | none => exact .inl ⟨rfl, trivial⟩
    | some source =>
      refine .inr ?_
      simp only [Option.map_some, h.read_view native hc hresolve]
  | write address bytes =>
    simp only [ops, writeBytes, MemoryCall.exec, MemoryCall.Refused]
    cases hresolve : memory.resolve address (.ofNat bytes.length) regionRightWrite with
    | none => exact .inl ⟨rfl, rfl⟩
    | some destination =>
      refine .inr ?_
      rw [h.view_write native bytes hc hresolve]
  | loadAcquire address =>
    simp only [ops, loadIndex, MemoryCall.exec, MemoryCall.Refused]
    cases hresolve : memory.resolve address 2 regionRightRead with
    | none => exact .inl ⟨rfl, trivial⟩
    | some source =>
      have hsize : 2 < 2 ^ 64 := by decide
      dsimp only
      split_ifs
      · exact .inl ⟨rfl, trivial⟩
      · refine .inr ?_
        rw [h.read_view native hsize hresolve]
  | storeRelease address value =>
    simp only [ops, storeIndex, MemoryCall.exec, MemoryCall.Refused]
    cases hresolve : memory.resolve address 2 regionRightWrite with
    | none => exact .inl ⟨rfl, rfl⟩
    | some destination =>
      have hsize : 2 < 2 ^ 64 := by decide
      dsimp only
      split_ifs
      · exact .inl ⟨rfl, rfl⟩
      · refine .inr ?_
        rw [h.view_write native (writeU16 value) hsize hresolve]
  | fence => exact .inr rfl

/-- An operation on mapped memory does to the memory at the transport addresses what it does to
a memory whose callbacks never fail, unless one of its callbacks fails. -/
theorem mapped_backend_faithful {arguments : Bool} {mappings : List Mapping} {arenas : List Arena}
    (hinit : init arguments mappings arenas = .ok memory) (b : Binding) (s : State) (r : Request)
    (native : Memory) :
    let run := execute (fun e : Access => memory.ops e.call) (perform b s r) native
    (run.2.1.1.status = .io ∧ run.2.1.2.faulted = true) ∨
      execute Access.exec (perform b s r) (memory.view native) =
        (run.1, run.2.1, memory.view run.2.2) := by
  obtain ⟨-, -, h⟩ := init_eq_ok.mp hinit
  refine (perform_strict b s r).execute_view (fun e m hsized => ?_) native
  rcases h.ops_view e.call hsized m with hfail | hsame
  · exact .inl hfail.1
  · exact .inr hsame

theorem paged_publication :
    let run := execute (fun e : Access => Sample.paged.ops e.call)
      (perform (Virtqueue.Sample.binding .driver) Virtqueue.Sample.opened
        ⟨.bound, 7, .publish (some 0) true⟩) Virtqueue.Sample.memory
    run.2.1.1.status = .ok ∧
      Virtqueue.Sample.run .driver Virtqueue.Sample.opened
        (Sample.paged.view Virtqueue.Sample.memory) (.publish (some 0) true) =
        (run.1, run.2.1, Sample.paged.view run.2.2) := by
  intro run
  have hinit : init true Sample.paged.mappings Sample.paged.arenas = .ok Sample.paged := rfl
  have hstatus : run.2.1.1.status = .ok := by decide +kernel
  refine ⟨hstatus, (mapped_backend_faithful hinit _ _ _ _).resolve_left fun hio => ?_⟩
  rw [hstatus] at hio
  cases hio.1

end View

end MappedMemory

end Kobox.Virtqueue
