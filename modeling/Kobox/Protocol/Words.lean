import Kobox.Library.Listing
import Kobox.Library.LittleEndian
import Kobox.Library.Stores
import Kobox.Protocol.Channel

/-!
# Words, digests and zeros of the wire tables

The loads, stores and loops that `protocol/src/closure_manifest.c` and
`protocol/src/resource_grant.c` share.
-/

namespace Kobox.Protocol
open ByteMemory LittleEndian Listing List
variable {m : Memory} {a n : ℕ}

/-! ### Words -/

def loadU32 (m : Memory) (a : ℕ) : UInt32 :=
  (m a).toUInt32 ||| (m (a + 1)).toUInt32 <<< 8 ||| (m (a + 2)).toUInt32 <<< 16 |||
    (m (a + 3)).toUInt32 <<< 24

def loadU64 (m : Memory) (a : ℕ) : UInt64 :=
  (loadU32 m a).toUInt64 ||| (loadU32 m (a + 4)).toUInt64 <<< 32

def storeU32 (value : UInt32) : List UInt8 :=
  [value.toUInt8, (value >>> 8).toUInt8, (value >>> 16).toUInt8, (value >>> 24).toUInt8]

def storeU64 (value : UInt64) : List UInt8 :=
  storeU32 value.toUInt32 ++ storeU32 (value >>> 32).toUInt32

@[simp] theorem storeU32_length (value : UInt32) : (storeU32 value).length = 4 := rfl

@[simp] theorem storeU64_length (value : UInt64) : (storeU64 value).length = 8 := rfl

theorem storeU32_zero : storeU32 0 = List.replicate 4 0 := by decide

theorem storeU64_zero : storeU64 0 = List.replicate 8 0 := by decide

theorem toNat_shiftLeft_byte (x : UInt8) {k : UInt32} (hk : k.toNat ≤ 24) :
    (x.toUInt32 <<< k).toNat = x.toNat <<< k.toNat := by
  have hx := x.toNat_lt
  rw [UInt32.toNat_shiftLeft, UInt8.toNat_toUInt32, Nat.mod_eq_of_lt (by omega : k.toNat < 32)]
  refine Nat.mod_eq_of_lt ?_
  rw [Nat.shiftLeft_eq]
  calc x.toNat * 2 ^ k.toNat < 2 ^ 8 * 2 ^ k.toNat := by
        exact Nat.mul_lt_mul_of_pos_right hx (Nat.two_pow_pos _)
    _ ≤ 2 ^ 8 * 2 ^ 24 := Nat.mul_le_mul_left _ (Nat.pow_le_pow_right (by norm_num) hk)
    _ = 2 ^ 32 := by norm_num

theorem toNat_loadU32 (m : Memory) (a : ℕ) : (loadU32 m a).toNat = value (read m a 4) := by
  have h0 := (m a).toNat_lt
  have h1 := (m (a + 1)).toNat_lt
  have h2 := (m (a + 2)).toNat_lt
  have h3 := (m (a + 3)).toNat_lt
  have h01 : (m a).toNat + 2 ^ 8 * (m (a + 1)).toNat < 2 ^ 16 := by omega
  have h012 : (m a).toNat + 2 ^ 8 * (m (a + 1)).toNat + 2 ^ 16 * (m (a + 2)).toNat < 2 ^ 24 := by
    omega
  have hread : read m a 4 = [m a, m (a + 1), m (a + 2), m (a + 3)] := rfl
  have hvalue : value (read m a 4) = (m a).toNat + 2 ^ 8 * (m (a + 1)).toNat +
      2 ^ 16 * (m (a + 2)).toNat + 2 ^ 24 * (m (a + 3)).toNat := by
    rw [hread, value_cons, value_cons, value_cons, value_cons, value_nil]
    omega
  rw [hvalue, loadU32, UInt32.toNat_or, UInt32.toNat_or, UInt32.toNat_or,
    toNat_shiftLeft_byte _ (by decide), toNat_shiftLeft_byte _ (by decide),
    toNat_shiftLeft_byte _ (by decide), UInt8.toNat_toUInt32]
  change (m a).toNat ||| (m (a + 1)).toNat <<< 8 ||| (m (a + 2)).toNat <<< 16 |||
    (m (a + 3)).toNat <<< 24 = _
  rw [or_shiftLeft_eq_add h0, or_shiftLeft_eq_add h01, or_shiftLeft_eq_add h012]

theorem toNat_loadU64 (m : Memory) (a : ℕ) : (loadU64 m a).toNat = value (read m a 8) := by
  have hread : read m a 8 = read m a 4 ++ read m (a + 4) 4 := read_append m a 4 4
  rw [loadU64, toNat_join32, hread, value_append, read_length, toNat_loadU32, toNat_loadU32]

theorem storeU32_eq (v : UInt32) : storeU32 v = bytes v.toNat 4 := by
  have hbyte : ∀ k : UInt32, k.toNat < 32 →
      (v >>> k).toUInt8 = UInt8.ofNat (v.toNat / 2 ^ k.toNat) := by
    intro k hk
    apply UInt8.toNat_inj.mp
    rw [UInt32.toNat_toUInt8, UInt32.toNat_shiftRight, UInt8.toNat_ofNat', Nat.mod_eq_of_lt hk,
      Nat.shiftRight_eq_div_pow]
  have hlow : v.toUInt8 = UInt8.ofNat v.toNat := by
    apply UInt8.toNat_inj.mp
    rw [UInt32.toNat_toUInt8, UInt8.toNat_ofNat']
  simp only [storeU32, bytes, hlow, hbyte 8 (by decide), hbyte 16 (by decide),
    hbyte 24 (by decide), Nat.div_div_eq_div_mul]
  rfl

theorem storeU64_eq (v : UInt64) : storeU64 v = bytes v.toNat 8 := by
  rw [storeU64, storeU32_eq, storeU32_eq, bytes_split64]

theorem read_eq_bytes_iff {k : ℕ} (h : n < 256 ^ k) :
    read m a k = bytes n k ↔ value (read m a k) = n := by
  constructor
  · intro heq
    rw [heq, value_bytes_of_lt h]
  · intro heq
    have hback := bytes_value (read m a k)
    rw [heq, read_length] at hback
    exact hback.symm

theorem holds_storeU32_iff {v : UInt32} :
    Holds m a (storeU32 v) ↔ loadU32 m a = v := by
  rw [← UInt32.toNat_inj, toNat_loadU32, Holds, storeU32_length, storeU32_eq]
  exact read_eq_bytes_iff v.toNat_lt

theorem holds_storeU64_iff {v : UInt64} :
    Holds m a (storeU64 v) ↔ loadU64 m a = v := by
  rw [← UInt64.toNat_inj, toNat_loadU64, Holds, storeU64_length, storeU64_eq]
  exact read_eq_bytes_iff v.toNat_lt

/-! ### Digests -/

/-- `KB2_CLOSURE_SCHEMA_DIGEST_SIZE` and `KB2_RESOURCE_GRANT_DIGEST_SIZE`. -/
def digestSize : ℕ := 32

/-- A `uint8_t[32]`. -/
structure Digest where
  bytes : List UInt8
  size : bytes.length = digestSize
  deriving DecidableEq

@[ext] theorem Digest.ext {d e : Digest} (h : d.bytes = e.bytes) : d = e := by
  cases d
  cases e
  simpa using h

@[simp] theorem Digest.bytes_length (d : Digest) : d.bytes.length = 32 := d.size

def loadDigest (m : Memory) (a : ℕ) : Digest := ⟨read m a digestSize, read_length _ _ _⟩

theorem holds_digest_iff {d : Digest} :
    Holds m a d.bytes ↔ loadDigest m a = d := by
  rw [Digest.ext_iff, Holds, d.size]
  rfl

def digestIsZero (digest : Digest) : Bool := digest.bytes.foldl (· ||| ·) 0 == 0

theorem foldl_or_eq_zero {bytes : List UInt8} {combined : UInt8} :
    bytes.foldl (· ||| ·) combined = 0 ↔ combined = 0 ∧ ∀ byte ∈ bytes, byte = 0 := by
  induction bytes generalizing combined with
  | nil => simp
  | cons byte rest ih =>
    rw [foldl_cons, ih, UInt8.or_eq_zero_iff, forall_mem_cons, and_assoc]

theorem digestIsZero_iff {digest : Digest} :
    digestIsZero digest = true ↔ ∀ byte ∈ digest.bytes, byte = 0 := by
  rw [digestIsZero, beq_iff_eq, foldl_or_eq_zero, eq_self, true_and]

def sizeMax : ℕ := 2 ^ 64 - 1

def addSize (value count itemSize : ℕ) : Option ℕ :=
  if count ≠ 0 ∧ itemSize > (sizeMax - value) / count then none else some (value + count * itemSize)

theorem addSize_eq_some {value count itemSize result : ℕ} (h : value ≤ sizeMax) :
    addSize value count itemSize = some result ↔
      result = value + count * itemSize ∧ result ≤ sizeMax := by
  unfold addSize
  rcases Nat.eq_zero_or_pos count with rfl | hpos
  · rw [if_neg (fun hn => absurd rfl hn.1), Option.some.injEq, Nat.zero_mul, Nat.add_zero]
    constructor
    · rintro rfl
      exact ⟨rfl, h⟩
    · rintro ⟨rfl, -⟩
      rfl
  · have hdiv : (sizeMax - value) / count < itemSize ↔ sizeMax - value < count * itemSize := by
      rw [Nat.div_lt_iff_lt_mul hpos, Nat.mul_comm]
    by_cases hover : sizeMax - value < count * itemSize
    · rw [if_pos ⟨by omega, hdiv.mpr hover⟩]
      constructor
      · nofun
      · rintro ⟨rfl, hle⟩
        omega
    · rw [if_neg (fun hn => hover (hdiv.mp hn.2)), Option.some.injEq]
      constructor
      · rintro rfl
        exact ⟨rfl, by omega⟩
      · rintro ⟨rfl, -⟩
        rfl

theorem foldlM_eq_some {α : Type} {step : ℕ → α → Option ℕ} {next : ℕ → α → ℕ} {valid : α → Prop}
    (hnext : ∀ size x, size ≤ next size x)
    (hstep : ∀ size x result, size ≤ sizeMax →
      (step size x = some result ↔ valid x ∧ result = next size x ∧ result ≤ sizeMax))
    {l : List α} {size result : ℕ} (hsize : size ≤ sizeMax) :
    l.foldlM step size = some result ↔
      (∀ x ∈ l, valid x) ∧ result = l.foldl next size ∧ result ≤ sizeMax := by
  induction l generalizing size with
  | nil =>
    simp only [foldlM_nil, foldl_nil, not_mem_nil, false_imp_iff, implies_true,
      true_and]
    constructor
    · intro h
      obtain rfl := Option.some.inj h
      exact ⟨rfl, hsize⟩
    · rintro ⟨rfl, -⟩
      rfl
  | cons x rest ih =>
    rw [foldlM_cons, Option.bind_eq_bind, Option.bind_eq_some_iff, forall_mem_cons,
      foldl_cons]
    constructor
    · rintro ⟨middle, hmiddle, hrest⟩
      obtain ⟨hx, rfl, hle⟩ := (hstep size x middle hsize).mp hmiddle
      obtain ⟨hvalid, hresult⟩ := (ih hle).mp hrest
      exact ⟨⟨hx, hvalid⟩, hresult⟩
    · rintro ⟨⟨hx, hvalid⟩, hresult, hle⟩
      have hmiddle : next size x ≤ sizeMax := by
        have hfold := le_foldl hnext rest (next size x)
        omega
      exact ⟨next size x, (hstep size x _ hsize).mpr ⟨hx, rfl, hmiddle⟩,
        (ih hmiddle).mpr ⟨hvalid, hresult, hle⟩⟩

def bytesAreZero (m : Memory) (a n : ℕ) : Bool := (read m a n).all (· == 0)

theorem bytesAreZero_iff :
    bytesAreZero m a n = true ↔ Holds m a (List.replicate n 0) := by
  rw [bytesAreZero, all_eq_true, Holds, length_replicate, eq_replicate_iff]
  simp only [read_length, true_and, beq_iff_eq]

theorem holds_zeros_iff :
    Holds m (Store.zeros a n).address (Store.zeros a n).bytes ↔ bytesAreZero m a n = true :=
  bytesAreZero_iff.symm

theorem holds_zeros_iff32 :
    Holds m (Store.zeros a 4).address (Store.zeros a 4).bytes ↔ loadU32 m a = 0 :=
  holds_storeU32_iff (v := 0)

theorem holds_zeros_iff64 :
    Holds m (Store.zeros a 8).address (Store.zeros a 8).bytes ↔ loadU64 m a = 0 :=
  holds_storeU64_iff (v := 0)

/-! ### Loops over records -/

def passes {α : Type} (result : Except Status α) (test : α → Bool) : Bool :=
  match result with
  | .ok record => test record
  | .error _ => false

def readStep {α σ : Type} (access : ℕ → Except Status α) (step : σ → α × ℕ → Option σ) (state : σ)
    (index : ℕ) : Option σ :=
  match access index with
  | .error _ => none
  | .ok record => step state (record, index)

def readEach {α σ : Type} (access : ℕ → Except Status α) (step : σ → α × ℕ → Option σ)
    (count : ℕ) (state : σ) : Option σ := (List.range count).foldlM (readStep access step) state

theorem all_passes_iff {α : Type} {access : ℕ → Except Status α} {test : α → Bool} {count : ℕ} :
    ((List.range count).all fun index => passes (access index) test) = true ↔
      ∃ l, Lists (fun index x => access index = .ok x) count l ∧ ∀ x ∈ l, test x = true := by
  rw [all_eq_true]
  constructor
  · intro h
    have hread : ∀ i < count, ∃ x, access i = .ok x ∧ test x = true := by
      intro i hi
      have hi := h i (mem_range.mpr hi)
      unfold passes at hi
      split at hi
      · exact ⟨_, by assumption, hi⟩
      · cases hi
    obtain ⟨l, hl⟩ := exists_lists hread
    refine ⟨l, hl.mono fun _ hx => hx.1, fun x hx => ?_⟩
    obtain ⟨i, -, -, hentry⟩ := hl.of_mem hx
    exact hentry.2
  · rintro ⟨l, hl, htest⟩ i hi
    obtain ⟨x, hx, hread⟩ := hl.get (mem_range.mp hi)
    rw [hread]
    exact htest x (mem_of_getElem? hx)

section Access
variable {α κ : Type} {access : ℕ → Except Status α} {count : ℕ} {l : List α}

theorem access_iff (hl : Lists (fun index x => access index = .ok x) count l)
    (hout : ∀ {index x}, access index = .ok x → index < count) {index : ℕ} {x : α} :
    access index = .ok x ↔ l[index]? = some x := by
  constructor
  · intro h
    obtain ⟨y, hy, hread⟩ := hl.get (hout h)
    rw [hy, Except.ok.inj (h.symm.trans hread)]
  · exact hl.entry

theorem toOption_access (hread : ∀ {index x}, access index = .ok x ↔ l[index]? = some x)
    (index : ℕ) : (access index).toOption = l[index]? := by
  cases h : access index with
  | ok x => exact (hread.mp h).symm
  | error status =>
    cases hl : l[index]? with
    | none => rfl
    | some x =>
      rw [hread.mpr hl] at h
      cases h

theorem all_passes_run (hread : ∀ {index x}, access index = .ok x ↔ l[index]? = some x)
    {test : α → Bool} {key : α → κ} {k : κ} (htest : ∀ x, test x = true ↔ key x = k) {cursor : ℕ} :
    ((List.range n).all fun i => passes (access (cursor + i)) test) = true ↔
      ∀ i < n, (l.map key)[cursor + i]? = some k := by
  simp only [all_eq_true, mem_range]
  refine forall₂_congr fun i _ => ?_
  rw [getElem?_map, ← toOption_access hread]
  cases access (cursor + i) with
  | ok x => rw [passes, Except.toOption, Option.map_some, Option.some_inj, htest]
  | error status => exact ⟨nofun, nofun⟩

end Access

section ReadEach
variable {α σ : Type} {access : ℕ → Except Status α} {step : σ → α × ℕ → Option σ}
  {count index : ℕ} {s s' : σ}

theorem readStep_eq_some :
    readStep access step s index = some s' ↔
      ∃ record, access index = .ok record ∧ step s (record, index) = some s' := by
  rw [readStep]
  cases access index with
  | error status => exact ⟨nofun, fun ⟨_, h, _⟩ => nomatch h⟩
  | ok record =>
    constructor
    · exact fun h => ⟨record, rfl, h⟩
    · rintro ⟨_, hrecord, h⟩
      rw [Except.ok.inj hrecord]
      exact h

theorem foldlM_readStep {indices : List ℕ} :
    indices.foldlM (readStep access step) s = some s' ↔
      ∃ l, List.Forall₂ (fun index x => access index = .ok x) indices l ∧
        (l.zip indices).foldlM step s = some s' := by
  induction indices generalizing s with
  | nil =>
    constructor
    · exact fun h => ⟨[], .nil, h⟩
    · rintro ⟨l, hl, h⟩
      rw [forall₂_nil_left_iff.mp hl] at h
      exact h
  | cons index rest ih =>
    rw [foldlM_cons, Option.bind_eq_bind, Option.bind_eq_some_iff]
    constructor
    · rintro ⟨middle, hmiddle, hrest⟩
      obtain ⟨l, hl, hfold⟩ := ih.mp hrest
      obtain ⟨record, hread, hstep⟩ := readStep_eq_some.mp hmiddle
      refine ⟨record :: l, .cons hread hl, ?_⟩
      rw [zip_cons_cons, foldlM_cons, Option.bind_eq_bind, Option.bind_eq_some_iff]
      exact ⟨middle, hstep, hfold⟩
    · rintro ⟨l, hl, hfold⟩
      obtain ⟨record, tail, hread, htail, rfl⟩ := forall₂_cons_left_iff.mp hl
      rw [zip_cons_cons, foldlM_cons, Option.bind_eq_bind,
        Option.bind_eq_some_iff] at hfold
      obtain ⟨middle, hstep, hrest⟩ := hfold
      exact ⟨middle, readStep_eq_some.mpr ⟨record, hread, hstep⟩, ih.mpr ⟨tail, htail, hrest⟩⟩

theorem readEach_eq_some :
    readEach access step count s = some s' ↔
      ∃ l, Lists (fun index x => access index = .ok x) count l ∧
        l.zipIdx.foldlM step s = some s' := by
  rw [readEach, foldlM_readStep]
  refine exists_congr fun l => ?_
  rw [forall₂_range_iff]
  refine and_congr_right fun hl => ?_
  rw [zipIdx_eq_zip_range', hl.length, range_eq_range']

end ReadEach

end Kobox.Protocol
