import Kobox.Gpu.Descriptor

/-!
# Shapes of i915 requests (`include/kobox2/i915_context_shape.h`, `i915_exec_shape.h`)
-/

namespace Kobox.Gpu.I915
open ByteMemory Protocol List

/-! ### Contexts -/

def contextCreate : UInt32 := 13

def contextSetparam : UInt32 := 14

def contextDestroy : UInt32 := 15

def maxContextParams : UInt32 := 64
def maxContextEngines : UInt32 := 4096
def maxContextEnginesPerParam : UInt32 := 64

def contextScalar (parameter : UInt64) : Bool :=
  [4, 5, 6, 8, 9, 11, 12, 13, 14].contains parameter

def contextCommand (command : UInt32) : Bool := contextCreate ≤ command && command ≤ contextDestroy

/-- `kb2_i915_context_header`: `aux_bytes` if the header is accepted. -/
def contextHeader (command : UInt32) (input : List UInt8) : Option ℕ :=
  let p := ofList input
  if contextCommand command = false then none
  else if command = contextDestroy then
    if input.length ≠ 8 ∨ loadU32 p 4 ≠ 0 then none else some 0
  else if input.length ≠ 16 ∨ loadU32 p 12 ≠ 0 then none
  else
    let params := loadU32 p 4
    let engines := loadU32 p 8
    if maxContextParams < params ∨ maxContextEngines < engines ∨ params = 0 ∧ engines ≠ 0 then none
    else if command = contextCreate then
      let flags := loadU32 p 0
      if flags &&& ~~~3 ≠ 0 ∨ params ≠ 0 ∧ flags &&& 1 = 0 then none
      else some (params.toNat * 32 + engines.toNat * 4)
    else if params ≠ 1 then none
    else some (params.toNat * 32 + engines.toNat * 4)

/-- A record of the parameter stream. -/
structure ContextParam where
  parameter : UInt64
  value : UInt64
  size : UInt32
  first : UInt32
  count : UInt32
  reserved : UInt32
  deriving DecidableEq, Repr

def contextParamAt (p : Memory) (i : ℕ) : ContextParam :=
  let q := i * 32
  ⟨loadU64 p q, loadU64 p (q + 8), loadU32 p (q + 16), loadU32 p (q + 20), loadU32 p (q + 24),
    loadU32 p (q + 28)⟩

/-- One turn of the loop of `kb2_i915_context_params`, which goes on with `next`. -/
def contextParamStep (engines next : UInt32) (q : ContextParam) : Option UInt32 :=
  if q.reserved ≠ 0 then none
  else if q.parameter = 10 then
    if q.value ≠ 0 ∨ maxContextEnginesPerParam < q.count then none
    else if q.size = 0 then if q.first ≠ 0 ∨ q.count ≠ 0 then none else some next
    else if q.size ≠ 8 + q.count * 4 ∨ q.first ≠ next ∨ engines - next < q.count then none
    else some (next + q.count)
  else if contextScalar q.parameter = false ∨ q.size ≠ 0 ∨ q.first ≠ 0 ∨ q.count ≠ 0 then none
  else some next

def contextRecords (data : List UInt8) (count : ℕ) : List ContextParam :=
  (List.range count).map (contextParamAt (ofList data))

def contextParams (data : List UInt8) (params engines : UInt32) : Bool :=
  if maxContextParams < params ∨ maxContextEngines < engines ∨
      data.length ≠ params.toNat * 32 + engines.toNat * 4 then false
  else
    (contextRecords data params.toNat).foldlM (contextParamStep engines) 0 == some engines

def maxExecObjects : UInt32 := 8192
def maxExecFences : UInt32 := 65536
def maxExecBytes : ℕ := 1048576

def execFlags : UInt64 := 0x000cfdff

/-- `kb2_i915_exec_header`: `aux_bytes` if the header is accepted. -/
def execHeader (input : List UInt8) : Option ℕ :=
  let p := ofList input
  if input.length ≠ 32 then none
  else
    let objects := loadU32 p 0
    let fences := loadU32 p 4
    let flags := loadU64 p 16
    if objects = 0 ∨ maxExecObjects < objects ∨ maxExecFences < fences ∨
        flags &&& ~~~execFlags ≠ 0 ∨ flags &&& (1 : UInt64) <<< 19 = 0 ∧ fences ≠ 0 ∨
        loadU32 p 28 ≠ 0 then none
    else
      let total := objects.toNat * 40 + fences.toNat * 8
      if maxExecBytes < total then none else some total

def execObjectValid (p : Memory) (i : ℕ) : Bool :=
  let q := i * 40
  let flags := loadU64 p (q + 24)
  loadU32 p (q + 4) == 0 && flags &&& ~~~0xff == 0 &&
    (flags &&& (1 : UInt64) <<< 5 != 0 || loadU64 p (q + 32) == 0)

def execFenceValid (p : Memory) (objects i : ℕ) : Bool :=
  loadU32 p (objects * 40 + i * 8 + 4) &&& ~~~3 == 0

def execPayload (data : List UInt8) (objects fences : UInt32) : Bool :=
  if objects = 0 ∨ maxExecObjects < objects ∨ maxExecFences < fences ∨
      data.length ≠ objects.toNat * 40 + fences.toNat * 8 ∨ maxExecBytes < data.length then false
  else
    (List.range objects.toNat).all (execObjectValid (ofList data)) &&
      (List.range fences.toNat).all (execFenceValid (ofList data) objects.toNat)

/-! ### Engine lists -/

/-- The rules for a record by itself. -/
structure ContextParam.WellFormed (q : ContextParam) : Prop where
  reserved : q.reserved = 0
  engines : q.parameter = 10 → q.value = 0 ∧ q.count.toNat ≤ 64 ∧
    (q.size = 0 ∧ q.first = 0 ∧ q.count = 0 ∨ q.size.toNat = 8 + 4 * q.count.toNat)
  scalar : q.parameter ≠ 10 →
    contextScalar q.parameter = true ∧ q.size = 0 ∧ q.first = 0 ∧ q.count = 0

def ContextParam.list (q : ContextParam) : Option Span :=
  if q.parameter = 10 ∧ q.size ≠ 0 then some ⟨q.first.toNat, q.count.toNat⟩ else none

def engineLists (records : List ContextParam) : List Span := records.filterMap ContextParam.list

section Step
variable {engines next next' : UInt32} {q : ContextParam}

theorem list_eq_some {list : Span} : q.list = some list ↔
    (q.parameter = 10 ∧ q.size ≠ 0) ∧ list = ⟨q.first.toNat, q.count.toNat⟩ := by
  rw [ContextParam.list, Option.ite_none_right_eq_some, Option.some.injEq, eq_comm (b := list)]

theorem size_eq_iff {size count : UInt32} (hcount : count.toNat ≤ 64) :
    size = 8 + count * 4 ↔ size.toNat = 8 + 4 * count.toNat := by
  have hvalue : (8 + count * 4).toNat = 8 + 4 * count.toNat := by
    rw [UInt32.toNat_add, UInt32.toNat_mul]
    show (8 + count.toNat * 4 % 2 ^ 32) % 2 ^ 32 = 8 + 4 * count.toNat
    omega
  rw [← UInt32.toNat_inj, hvalue]

theorem contextParamStep_list (hnext : next ≤ engines) {list : Span} (hlist : q.list = some list) :
    contextParamStep engines next q = some next' ↔
      q.WellFormed ∧ list.base = next.toNat ∧ list.base + list.size ≤ engines.toNat ∧
        next'.toNat = list.base + list.size := by
  obtain ⟨⟨hparameter, hsize⟩, rfl⟩ := list_eq_some.mp hlist
  have hlt := engines.toNat_lt
  have hle := UInt32.le_iff_toNat_le.mp hnext
  have hroom : ¬engines - next < q.count ↔ next.toNat + q.count.toNat ≤ engines.toNat := by
    rw [UInt32.not_lt, UInt32.le_iff_toNat_le, UInt32.toNat_sub_of_le _ _ hnext]
    omega
  have hsum : next.toNat + q.count.toNat ≤ engines.toNat →
      (next + q.count).toNat = next.toNat + q.count.toNat := by
    intro h
    rw [UInt32.toNat_add]
    exact Nat.mod_eq_of_lt (by omega)
  have hmany : maxContextEnginesPerParam < q.count ↔ 64 < q.count.toNat := UInt32.lt_iff_toNat_lt
  rw [contextParamStep, if_pos hparameter, if_neg hsize]
  simp only [Option.ite_none_left_eq_some, not_or, not_not, hmany, Nat.not_lt, hroom,
    Option.some.injEq]
  constructor
  · intro ⟨hreserved, ⟨hvalue, hcount⟩, ⟨hbytes, hfirst, hend⟩, hafter⟩
    refine ⟨⟨hreserved, fun _ => ⟨hvalue, hcount, .inr ((size_eq_iff hcount).mp hbytes)⟩,
      fun h => absurd hparameter h⟩, ?_, ?_, ?_⟩
    · rw [hfirst]
    · rw [hfirst]
      exact hend
    · rw [hfirst, ← hafter, hsum hend]
  · intro ⟨hwell, hfirst, hend, hafter⟩
    obtain ⟨hvalue, hcount, hbytes⟩ := hwell.engines hparameter
    have hbytes := hbytes.resolve_left fun h => hsize h.1
    rw [hfirst] at hend hafter
    exact ⟨hwell.reserved, ⟨hvalue, hcount⟩, ⟨(size_eq_iff hcount).mpr hbytes,
      UInt32.toNat_inj.mp hfirst, hend⟩, UInt32.toNat_inj.mp ((hsum hend).trans hafter.symm)⟩

theorem contextParamStep_none (hlist : q.list = none) :
    contextParamStep engines next q = some next' ↔ q.WellFormed ∧ next' = next := by
  have hnone : q.parameter = 10 → q.size = 0 := by
    intro hparameter
    by_contra hsize
    rw [list_eq_some.mpr ⟨⟨hparameter, hsize⟩, rfl⟩] at hlist
    cases hlist
  have hmany : maxContextEnginesPerParam < q.count ↔ 64 < q.count.toNat := UInt32.lt_iff_toNat_lt
  rw [contextParamStep]
  by_cases hparameter : q.parameter = 10
  · rw [if_pos hparameter, if_pos (hnone hparameter)]
    simp only [Option.ite_none_left_eq_some, not_or, not_not, hmany, Nat.not_lt, Option.some.injEq]
    constructor
    · intro ⟨hreserved, ⟨hvalue, hcount⟩, ⟨hfirst, hzero⟩, hafter⟩
      exact ⟨⟨hreserved, fun _ => ⟨hvalue, hcount, .inl ⟨hnone hparameter, hfirst, hzero⟩⟩,
        fun h => absurd hparameter h⟩, hafter.symm⟩
    · intro ⟨hwell, hafter⟩
      obtain ⟨hvalue, hcount, hbytes⟩ := hwell.engines hparameter
      have hempty : ¬q.size.toNat = 8 + 4 * q.count.toNat := by
        rw [hnone hparameter, UInt32.toNat_zero]
        omega
      obtain ⟨-, hfirst, hzero⟩ := hbytes.resolve_right hempty
      exact ⟨hwell.reserved, ⟨hvalue, hcount⟩, ⟨hfirst, hzero⟩, hafter.symm⟩
  · rw [if_neg hparameter]
    simp only [Option.ite_none_left_eq_some, not_or, not_not, Bool.not_eq_false,
      Option.some.injEq]
    constructor
    · intro ⟨hreserved, hscalar, hafter⟩
      exact ⟨⟨hreserved, fun h => absurd h hparameter, fun _ => hscalar⟩, hafter.symm⟩
    · intro ⟨hwell, hafter⟩
      exact ⟨hwell.reserved, hwell.scalar hparameter, hafter.symm⟩

theorem contextParamStep_le (hnext : next ≤ engines)
    (h : contextParamStep engines next q = some next') : next' ≤ engines := by
  cases hlist : q.list with
  | none =>
    obtain ⟨-, rfl⟩ := (contextParamStep_none hlist).mp h
    exact hnext
  | some list =>
    obtain ⟨-, -, hend, hafter⟩ := (contextParamStep_list hnext hlist).mp h
    rw [UInt32.le_iff_toNat_le]
    omega

end Step

section Stream
variable {engines next : UInt32} {records : List ContextParam}

theorem foldlM_contextParamStep (hnext : next ≤ engines) :
    records.foldlM (contextParamStep engines) next = some engines ↔
      (∀ q ∈ records, q.WellFormed) ∧ Span.Consecutive (engineLists records) next.toNat engines.toNat := by
  induction records generalizing next with
  | nil =>
    rw [foldlM_nil, engineLists, filterMap_nil, Span.Consecutive, UInt32.toNat_inj]
    simp
  | cons q rest ih =>
    rw [foldlM_cons, Option.bind_eq_bind, Option.bind_eq_some_iff, forall_mem_cons]
    cases hlist : q.list with
    | none =>
      rw [engineLists, filterMap_cons_none hlist]
      simp only [contextParamStep_none hlist]
      constructor
      · rintro ⟨after, ⟨hwell, hafter⟩, hrest⟩
        subst hafter
        obtain ⟨hall, hlists⟩ := (ih hnext).mp hrest
        exact ⟨⟨hwell, hall⟩, hlists⟩
      · rintro ⟨⟨hwell, hall⟩, hlists⟩
        exact ⟨next, ⟨hwell, rfl⟩, (ih hnext).mpr ⟨hall, hlists⟩⟩
    | some list =>
      rw [engineLists, filterMap_cons_some hlist, Span.Consecutive]
      simp only [contextParamStep_list hnext hlist]
      constructor
      · rintro ⟨after, ⟨hwell, hbase, hend, hafter⟩, hrest⟩
        obtain ⟨hall, hlists⟩ := (ih (UInt32.le_iff_toNat_le.mpr (by omega))).mp hrest
        rw [hafter, hbase] at hlists
        exact ⟨⟨hwell, hall⟩, hbase, hlists⟩
      · rintro ⟨⟨hwell, hall⟩, hbase, hlists⟩
        have hend := hlists.le
        have hlt := engines.toNat_lt
        have hafter : (UInt32.ofNat (next.toNat + list.size)).toNat = next.toNat + list.size :=
          UInt32.toNat_ofNat_of_lt' (Nat.lt_of_le_of_lt hend hlt)
        rw [← hafter] at hlists
        refine ⟨.ofNat (next.toNat + list.size), ⟨hwell, hbase, by omega, by omega⟩, ?_⟩
        exact (ih (UInt32.le_iff_toNat_le.mpr (by omega))).mpr ⟨hall, hlists⟩

theorem le_of_foldlM (hnext : next ≤ engines) {after : UInt32}
    (h : records.foldlM (contextParamStep engines) next = some after) : after ≤ engines := by
  induction records generalizing next with
  | nil =>
    rw [foldlM_nil] at h
    obtain rfl := Option.some.inj h
    exact hnext
  | cons q rest ih =>
    rw [foldlM_cons, Option.bind_eq_bind, Option.bind_eq_some_iff] at h
    obtain ⟨middle, hstep, hrest⟩ := h
    exact ih (contextParamStep_le hnext hstep) hrest

end Stream

/-- Each record keeps the rules, and the lists follow one another through the whole array. -/
structure Tiled (data : List UInt8) (params engines : UInt32) : Prop where
  records : ∀ q ∈ contextRecords data params.toNat, q.WellFormed
  lists : Span.Consecutive (engineLists (contextRecords data params.toNat)) 0 engines.toNat

section Params
variable {data : List UInt8} {params engines : UInt32}

theorem contextParams_iff : contextParams data params engines = true ↔
    (params.toNat ≤ 64 ∧ engines.toNat ≤ 4096 ∧
      data.length = params.toNat * 32 + engines.toNat * 4) ∧ Tiled data params engines := by
  have hparams : maxContextParams < params ↔ ¬params.toNat ≤ 64 :=
    UInt32.lt_iff_toNat_lt.trans Nat.not_le.symm
  have hengines : maxContextEngines < engines ↔ ¬engines.toNat ≤ 4096 :=
    UInt32.lt_iff_toNat_lt.trans Nat.not_le.symm
  have hzero : (0 : UInt32) ≤ engines := UInt32.le_iff_toNat_le.mpr (Nat.zero_le _)
  have htiled : (contextRecords data params.toNat).foldlM (contextParamStep engines) 0 =
      some engines ↔ Tiled data params engines := by
    rw [foldlM_contextParamStep hzero]
    exact ⟨fun ⟨hrecords, hlists⟩ => ⟨hrecords, hlists⟩, fun h => ⟨h.records, h.lists⟩⟩
  rw [contextParams, ← htiled]
  split_ifs with hbad
  · simp only [false_iff, not_and]
    intro ⟨hfew, hless, hsize⟩
    simp only [hparams, hengines] at hbad
    tauto
  · rw [beq_iff_eq]
    simp only [hparams, hengines, not_or, not_not] at hbad
    exact (and_iff_right hbad).symm

variable (h : Tiled data params engines)
include h

theorem Tiled.size_le :
    ∀ list ∈ engineLists (contextRecords data params.toNat), list.size ≤ 64 := by
  intro list hlist
  obtain ⟨q, hq, heq⟩ := mem_filterMap.mp hlist
  obtain ⟨⟨hparameter, -⟩, rfl⟩ := list_eq_some.mp heq
  exact ((h.records q hq).engines hparameter).2.1

theorem Tiled.mem_iff {e : ℕ} :
    (∃ list ∈ engineLists (contextRecords data params.toNat), Span.Mem e list) ↔
      e < engines.toNat := by
  constructor
  · intro ⟨list, hlist, hmem⟩
    exact hmem.2.trans_le (h.lists.within hlist).2
  · intro he
    exact h.lists.exists_mem (Nat.zero_le e) he

theorem Tiled.engines_le : engines.toNat ≤ 64 * params.toNat := by
  have hsum : ∀ (lists : List Span) (start stop : ℕ), Span.Consecutive lists start stop →
      (∀ list ∈ lists, list.size ≤ 64) → stop ≤ start + 64 * lists.length := by
    intro lists
    induction lists with
    | nil =>
      intro start stop hlists _
      exact Nat.le_of_eq hlists.symm
    | cons list rest ih =>
      intro start stop hlists hsize
      have hrest := ih _ _ hlists.2 fun l hl => hsize l (mem_cons_of_mem _ hl)
      have hfirst := hsize list mem_cons_self
      rw [length_cons]
      omega
  have hall := hsum _ _ _ h.lists h.size_le
  have hlength := length_filterMap_le ContextParam.list (contextRecords data params.toNat)
  have hrecords : (contextRecords data params.toNat).length = params.toNat := by
    rw [contextRecords, length_map, length_range]
  rw [engineLists] at hall
  omega

end Params

/-! ### Streams -/

def ContextParam.image (record : ℕ) (q : ContextParam) : List Store :=
  [⟨record, storeU64 q.parameter⟩, ⟨record + 8, storeU64 q.value⟩, ⟨record + 16, storeU32 q.size⟩,
    ⟨record + 20, storeU32 q.first⟩, ⟨record + 24, storeU32 q.count⟩,
    ⟨record + 28, storeU32 q.reserved⟩]

theorem ContextParam.fills (q : ContextParam) (record : ℕ) :
    Fills (q.image record) (q.image record) record (record + 32) :=
  .cons 8 rfl <| .cons 8 rfl <| .cons 4 rfl <| .cons 4 rfl <| .cons 4 rfl <| .cons 4 rfl <| .nil _

theorem contextParamAt_of_held {m : Memory} {i : ℕ} {q : ContextParam}
    (h : Held m (q.image (i * 32))) : contextParamAt m i = q := by
  simp only [ContextParam.image, held_cons, held_nil, holds_storeU32_iff, holds_storeU64_iff,
    and_true] at h
  obtain ⟨hparameter, hvalue, hsize, hfirst, hcount, hreserved⟩ := h
  rw [contextParamAt, hparameter, hvalue, hsize, hfirst, hcount, hreserved]

theorem exists_contextRecords (records : List ContextParam) (rest : ℕ) :
    ∃ data : List UInt8, data.length = records.length * 32 + rest ∧
      contextRecords data records.length = records := by
  have htable : Fills (tableImage 32 ContextParam.image records 0)
      (tableImage 32 ContextParam.image records 0) 0 (0 + records.length * 32) :=
    fills_tableImage (fun q _ => q.fills) 0
  have hfills := htable.append (Fills.reserved _ rest)
  rw [Nat.zero_add] at hfills
  obtain ⟨data, hsize, hheld⟩ := hfills.exists_held
  refine ⟨data, hsize, Listing.map_range_iff.mpr ⟨rfl, fun {i q} hq => ?_⟩⟩
  have hrecord := held_tableImage.mp (held_append.mp hheld).1 i q hq
  rw [Nat.zero_add] at hrecord
  exact contextParamAt_of_held hrecord

def fullList (engines i : ℕ) : Span := ⟨min (64 * i) engines, min 64 (engines - 64 * i)⟩

theorem consecutive_fullList (engines count : ℕ) :
    Span.Consecutive ((List.range count).map (fullList engines)) 0 (min (64 * count) engines) := by
  induction count with
  | zero => exact (Nat.zero_min engines).symm
  | succ count ih =>
    rw [range_succ, map_append]
    refine Span.consecutive_append.mpr ⟨ih, ?_⟩
    show min (64 * count) engines + min 64 (engines - 64 * count) = min (64 * (count + 1)) engines
    omega

def listParam (list : Span) : ContextParam :=
  ⟨10, 0, .ofNat (8 + 4 * list.size), .ofNat list.base, .ofNat list.size, 0⟩

section ListParam
variable {list : Span}

variable (hbase : list.base ≤ 4096) (hsize : list.size ≤ 64)
include hbase hsize

theorem toNat_listParam :
    (listParam list).first.toNat = list.base ∧ (listParam list).count.toNat = list.size ∧
      (listParam list).size.toNat = 8 + 4 * list.size := by
  have hword : ∀ n < 2 ^ 32, (UInt32.ofNat n).toNat = n := fun n hn =>
    UInt32.toNat_ofNat_of_lt' hn
  exact ⟨hword _ (by omega), hword _ (by omega), hword _ (by omega)⟩

theorem listParam_wellFormed : (listParam list).WellFormed := by
  obtain ⟨-, hcount, hbytes⟩ := toNat_listParam hbase hsize
  refine ⟨rfl, fun _ => ⟨rfl, ?_, .inr ?_⟩, fun h => absurd rfl h⟩
  · rw [hcount]
    exact hsize
  · rw [hcount, hbytes]

theorem list_listParam : (listParam list).list = some list := by
  obtain ⟨hfirst, hcount, hbytes⟩ := toNat_listParam hbase hsize
  refine list_eq_some.mpr ⟨⟨rfl, fun hzero => ?_⟩, ?_⟩
  · rw [hzero, UInt32.toNat_zero] at hbytes
    omega
  · rw [hfirst, hcount]

end ListParam

theorem exists_contextParams_iff {params engines : UInt32} (hparams : params.toNat ≤ 64)
    (hengines : engines.toNat ≤ 4096) :
    (∃ data, contextParams data params engines = true) ↔ engines.toNat ≤ 64 * params.toNat := by
  constructor
  · intro ⟨data, h⟩
    exact (contextParams_iff.mp h).2.engines_le
  · intro hroom
    let lists := (List.range params.toNat).map (fullList engines.toNat)
    have hlength : (lists.map listParam).length = params.toNat := by
      rw [length_map, length_map, length_range]
    have hfull : ∀ list ∈ lists, list.base ≤ 4096 ∧ list.size ≤ 64 := by
      intro list hlist
      obtain ⟨i, -, rfl⟩ := mem_map.mp hlist
      exact ⟨(Nat.min_le_right _ _).trans hengines, Nat.min_le_left _ _⟩
    obtain ⟨data, hsize, hrecords⟩ :=
      exists_contextRecords (lists.map listParam) (engines.toNat * 4)
    rw [hlength] at hsize hrecords
    have hlists : engineLists (lists.map listParam) = lists := by
      rw [engineLists, filterMap_map]
      refine Eq.trans (filterMap_congr fun list hlist => ?_) (filterMap_some)
      exact list_listParam (hfull list hlist).1 (hfull list hlist).2
    refine ⟨data, contextParams_iff.mpr ⟨⟨hparams, hengines, hsize⟩, ?_, ?_⟩⟩
    · rw [hrecords]
      intro q hq
      obtain ⟨list, hlist, rfl⟩ := mem_map.mp hq
      exact listParam_wellFormed (hfull list hlist).1 (hfull list hlist).2
    · have hend := consecutive_fullList engines.toNat params.toNat
      rw [Nat.min_eq_right hroom] at hend
      rw [hrecords, hlists]
      exact hend

theorem contextHeader_sizes {command : UInt32} {input : List UInt8} {aux : ℕ}
    (hcommand : command ≠ contextDestroy) (h : contextHeader command input = some aux) :
    (loadU32 (ofList input) 4).toNat ≤ 64 ∧ (loadU32 (ofList input) 8).toNat ≤ 4096 ∧
      aux = (loadU32 (ofList input) 4).toNat * 32 + (loadU32 (ofList input) 8).toNat * 4 := by
  simp only [contextHeader, if_neg hcommand, Option.ite_none_left_eq_some] at h
  obtain ⟨-, -, hcounts, hrest⟩ := h
  have hparams : ¬maxContextParams < loadU32 (ofList input) 4 := fun h => hcounts (.inl h)
  have hengines : ¬maxContextEngines < loadU32 (ofList input) 8 := fun h => hcounts (.inr (.inl h))
  rw [UInt32.lt_iff_toNat_lt] at hparams hengines
  refine ⟨Nat.not_lt.mp hparams, Nat.not_lt.mp hengines, ?_⟩
  split_ifs at hrest <;> simp_all

theorem execHeader_sizes {input : List UInt8} {aux : ℕ} (h : execHeader input = some aux) :
    (loadU32 (ofList input) 0 ≠ 0 ∧ ¬maxExecObjects < loadU32 (ofList input) 0 ∧
      ¬maxExecFences < loadU32 (ofList input) 4) ∧ aux ≤ maxExecBytes ∧
      aux = (loadU32 (ofList input) 0).toNat * 40 + (loadU32 (ofList input) 4).toNat * 8 := by
  simp only [execHeader, Option.ite_none_left_eq_some, not_or, Option.some.injEq] at h
  obtain ⟨-, ⟨hobjects, hmany, hfences, -⟩, hbytes, rfl⟩ := h
  exact ⟨⟨hobjects, hmany, hfences⟩, Nat.not_lt.mp hbytes, rfl⟩

section Payload
variable {data : List UInt8} {objects fences : UInt32}

/-- The rules for the objects and the fences of a payload. -/
structure ExecWellFormed (data : List UInt8) (objects fences : UInt32) : Prop where
  object : ∀ i < objects.toNat, execObjectValid (ofList data) i = true
  fence : ∀ i < fences.toNat, execFenceValid (ofList data) objects.toNat i = true

theorem execPayload_iff (hobjects : objects ≠ 0) (hmany : ¬maxExecObjects < objects)
    (hfences : ¬maxExecFences < fences)
    (hbytes : objects.toNat * 40 + fences.toNat * 8 ≤ maxExecBytes) :
    execPayload data objects fences = true ↔
      data.length = objects.toNat * 40 + fences.toNat * 8 ∧ ExecWellFormed data objects fences := by
  rw [execPayload]
  split_ifs with hbad
  · simp only [false_iff, not_and]
    intro hsize
    rw [hsize] at hbad
    have hless := Nat.not_lt.mpr hbytes
    simp [hobjects, hmany, hfences, hless] at hbad
  · simp only [not_or, not_not] at hbad
    rw [Bool.and_eq_true, all_eq_true, all_eq_true, and_iff_right hbad.2.2.2.1]
    simp only [mem_range]
    exact ⟨fun ⟨hall, hrest⟩ => ⟨hall, hrest⟩, fun h => ⟨h.object, h.fence⟩⟩

theorem execWellFormed_replicate (n : ℕ) :
    ExecWellFormed (List.replicate n 0) objects fences := by
  have hzero : ofList (List.replicate n 0) = fun _ => 0 := by
    funext x
    rw [ofList, getD_eq_getElem?_getD, getElem?_replicate]
    split_ifs <;> rfl
  have h32 : ∀ a, loadU32 (fun _ => 0) a = 0 := fun _ => by simp only [loadU32]; decide
  have h64 : ∀ a, loadU64 (fun _ => 0) a = 0 := fun _ => by simp only [loadU64, h32]; decide
  constructor
  · intro i _
    simp [hzero, execObjectValid, h32, h64]
  · intro i _
    simp [hzero, execFenceValid, h32]

end Payload

/-- The engine lists of a payload that passes tile its engine array: they are apart, cover it and
have at most 64 entries each, and the subtraction that bounds them never wraps. A header asks for
exactly the size of the payloads that pass; there is one unless it has more than 64 engines to a
parameter. -/
theorem engine_lists_tile :
    (∀ data params engines, contextParams data params engines = true ↔
      (params.toNat ≤ 64 ∧ engines.toNat ≤ 4096 ∧
        data.length = params.toNat * 32 + engines.toNat * 4) ∧ Tiled data params engines) ∧
    (∀ data params engines, contextParams data params engines = true →
      let lists := engineLists (contextRecords data params.toNat)
      lists.Pairwise Span.Apart ∧ (∀ e, (∃ list ∈ lists, Span.Mem e list) ↔ e < engines.toNat) ∧
        ∀ list ∈ lists, list.size ≤ 64) ∧
    (∀ data engines i next, (contextRecords data i).foldlM (contextParamStep engines) 0 = some next →
      next ≤ engines ∧ (engines - next).toNat = engines.toNat - next.toNat) ∧
    (∀ command input aux, command = contextCreate ∨ command = contextSetparam →
      contextHeader command input = some aux →
      let params := loadU32 (ofList input) 4
      let engines := loadU32 (ofList input) 8
      (∀ data, contextParams data params engines = true ↔
        data.length = aux ∧ Tiled data params engines) ∧
      ((∃ data, contextParams data params engines = true) ↔
        engines.toNat ≤ 64 * params.toNat)) ∧
    (∀ input aux, execHeader input = some aux →
      let objects := loadU32 (ofList input) 0
      let fences := loadU32 (ofList input) 4
      (∀ data, execPayload data objects fences = true ↔
        data.length = aux ∧ ExecWellFormed data objects fences) ∧
      ∃ data, execPayload data objects fences = true) := by
  refine ⟨fun _ _ _ => contextParams_iff, ?_, ?_, ?_, ?_⟩
  · intro data params engines h
    have htiled := (contextParams_iff.mp h).2
    exact ⟨htiled.lists.pairwise, fun e => htiled.mem_iff, htiled.size_le⟩
  · intro data engines i next h
    have hle := le_of_foldlM (UInt32.le_iff_toNat_le.mpr (Nat.zero_le _)) h
    exact ⟨hle, UInt32.toNat_sub_of_le _ _ hle⟩
  · intro command input aux hcommand h params engines
    have hdestroy : command ≠ contextDestroy := by
      rcases hcommand with rfl | rfl <;> decide
    obtain ⟨hparams, hengines, rfl⟩ := contextHeader_sizes hdestroy h
    refine ⟨fun data => ?_, exists_contextParams_iff hparams hengines⟩
    rw [contextParams_iff, and_iff_right hparams, and_iff_right hengines]
  · intro input aux h objects fences
    obtain ⟨⟨hobjects, hmany, hfences⟩, hbytes, rfl⟩ := execHeader_sizes h
    have hpayload : ∀ data, execPayload data objects fences = true ↔ _ :=
      fun data => execPayload_iff hobjects hmany hfences hbytes
    refine ⟨hpayload, .replicate (objects.toNat * 40 + fences.toNat * 8) 0, ?_⟩
    exact (hpayload _).mpr ⟨length_replicate, execWellFormed_replicate _⟩

end Kobox.Gpu.I915
