import Kobox.Library.Sha2
import Kobox.Protocol.Sha256

/-!
# The digests are those of the standard
-/

namespace Kobox.Protocol
open ByteMemory LittleEndian Chunks List

namespace Sha256

theorem toBitVec_rotateRight (value shift : UInt32) (hpos : 0 < shift.toNat)
    (hlt : shift.toNat < 32) :
    (rotateRight value shift).toBitVec = value.toBitVec.rotateRight shift.toNat := by
  have hright : (shift.toBitVec % 32).toNat = shift.toNat := by
    rw [BitVec.toNat_umod]
    exact Nat.mod_eq_of_lt hlt
  have hleft : ((32 - shift).toBitVec % 32).toNat = 32 - shift.toNat := by
    have hsub : (32 - shift).toNat = 32 - shift.toNat :=
      UInt32.toNat_sub_of_le _ _ (UInt32.le_iff_toNat_le.mpr hlt.le)
    rw [BitVec.toNat_umod]
    show (32 - shift).toNat % 32 = 32 - shift.toNat
    rw [hsub]
    exact Nat.mod_eq_of_lt (by omega)
  rw [rotateRight, BitVec.rotateRight_def, UInt32.toBitVec_or, UInt32.toBitVec_shiftRight,
    UInt32.toBitVec_shiftLeft, Nat.mod_eq_of_lt hlt, BitVec.ushiftRight_eq', BitVec.shiftLeft_eq',
    hright, hleft]

theorem or_reverse (w x y z : UInt32) : w ||| x ||| y ||| z = z ||| y ||| x ||| w := by
  rw [UInt32.or_comm (w ||| x ||| y), UInt32.or_comm (w ||| x), UInt32.or_comm w, UInt32.or_assoc,
    UInt32.or_assoc]

theorem toNat_loadBe32 (m : Memory) (a : ℕ) :
    (loadBe32 m a).toNat = Sha2.number (Sha2.message (read m a 4)) := by
  have hswap : loadBe32 m a = loadU32 (ofList [m (a + 3), m (a + 2), m (a + 1), m a]) 0 :=
    or_reverse ..
  have hlittle : read (ofList [m (a + 3), m (a + 2), m (a + 1), m a]) 0 4 =
      [m (a + 3), m (a + 2), m (a + 1), m a] := rfl
  have hread : read m a 4 = [m a] ++ [m (a + 1)] ++ [m (a + 2)] ++ [m (a + 3)] := rfl
  have hbyte : ∀ byte, Sha2.number (Sha2.message [byte]) = byte.toNat := by
    intro byte
    rw [Sha2.message, flatMap_singleton, Sha2.number_byteBits]
  rw [hswap, toNat_loadU32, hlittle, hread]
  simp only [value_cons, value_nil, Sha2.message_append, Sha2.number_append, Sha2.length_message,
    hbyte, length_singleton]
  omega

theorem message_storeBe32 (value : UInt32) :
    Sha2.message (storeBe32 value) = Sha2.bits 32 value.toNat := by
  rw [Sha2.bits_add 8 24, Sha2.bits_add 8 16, Sha2.bits_add 8 8, storeBe32, Sha2.message]
  simp only [flatMap_cons, flatMap_nil, append_nil, Sha2.byteBits,
    UInt32.toNat_toUInt8, Sha2.bits_mod, UInt32.toNat_shiftRight, Nat.shiftRight_eq_div_pow]
  rfl

theorem message_bitCountBytes (bitCount : UInt64) :
    Sha2.message (bitCountBytes bitCount) = Sha2.bits 64 bitCount.toNat := by
  rw [Sha2.bits_add 8 56, Sha2.bits_add 8 48, Sha2.bits_add 8 40, Sha2.bits_add 8 32,
    Sha2.bits_add 8 24, Sha2.bits_add 8 16, Sha2.bits_add 8 8, bitCountBytes, Sha2.message]
  simp only [flatMap_cons, flatMap_nil, append_nil, Sha2.byteBits,
    UInt64.toNat_toUInt8, Sha2.bits_mod, UInt64.toNat_shiftRight, Nat.shiftRight_eq_div_pow]
  rfl

/-! ### Blocks -/

section Functions
variable (x : UInt32)

theorem toBitVec_rotations {a b : UInt32} (ha : 0 < a.toNat ∧ a.toNat < 32)
    (hb : 0 < b.toNat ∧ b.toNat < 32) (y : UInt32) :
    (rotateRight x a ^^^ rotateRight x b ^^^ y).toBitVec =
      x.toBitVec.rotateRight a.toNat ^^^ x.toBitVec.rotateRight b.toNat ^^^ y.toBitVec := by
  rw [UInt32.toBitVec_xor, UInt32.toBitVec_xor, toBitVec_rotateRight _ a ha.1 ha.2,
    toBitVec_rotateRight _ b hb.1 hb.2]

theorem toBitVec_bigSigma0 :
    (rotateRight x 2 ^^^ rotateRight x 13 ^^^ rotateRight x 22).toBitVec =
      Sha2.bigSigma0 x.toBitVec := by
  rw [toBitVec_rotations _ (by decide) (by decide), toBitVec_rotateRight _ 22 (by decide) (by decide)]
  rfl

theorem toBitVec_bigSigma1 :
    (rotateRight x 6 ^^^ rotateRight x 11 ^^^ rotateRight x 25).toBitVec =
      Sha2.bigSigma1 x.toBitVec := by
  rw [toBitVec_rotations _ (by decide) (by decide), toBitVec_rotateRight _ 25 (by decide) (by decide)]
  rfl

theorem toBitVec_smallSigma0 :
    (rotateRight x 7 ^^^ rotateRight x 18 ^^^ (x >>> 3)).toBitVec = Sha2.smallSigma0 x.toBitVec :=
  toBitVec_rotations x (by decide) (by decide) _

theorem toBitVec_smallSigma1 :
    (rotateRight x 17 ^^^ rotateRight x 19 ^^^ (x >>> 10)).toBitVec =
      Sha2.smallSigma1 x.toBitVec :=
  toBitVec_rotations x (by decide) (by decide) _

theorem toBitVec_ch (y z : UInt32) :
    ((x &&& y) ^^^ (~~~x &&& z)).toBitVec = Sha2.ch x.toBitVec y.toBitVec z.toBitVec := rfl

theorem toBitVec_maj (y z : UInt32) :
    ((x &&& y) ^^^ (x &&& z) ^^^ (y &&& z)).toBitVec =
      Sha2.maj x.toBitVec y.toBitVec z.toBitVec := rfl

end Functions

section Schedule
variable {block : List UInt8} {words : List UInt32} {W : ℕ → Sha2.Word}

theorem toBitVec_loadBe32 (hsize : block.length = 64) {t : ℕ} (ht : t < 16) :
    (loadBe32 (ofList block) (t * 4)).toBitVec = Sha2.blockWord (Sha2.message block) t := by
  have hwindow : ((Sha2.message block).drop (32 * t)).take 32 =
      Sha2.message (read (ofList block) (t * 4) 4) := by
    rw [read_ofList_window (by omega), show 32 * t = 8 * (t * 4) by omega, Sha2.message,
      drop_flatMap_const Sha2.length_byteBits, take_flatMap_const Sha2.length_byteBits 4]
    rfl
  rw [Sha2.blockWord, hwindow, ← toNat_loadBe32]
  apply BitVec.eq_of_toNat_eq
  rw [BitVec.toNat_ofNat]
  exact (Nat.mod_eq_of_lt (UInt32.toNat_lt _)).symm

def Reversed (W : ℕ → Sha2.Word) (count : ℕ) (words : List UInt32) : Prop :=
  words.map UInt32.toBitVec = ((List.range count).map W).reverse

theorem Reversed.getD {count : ℕ} (h : Reversed W count words) {k : ℕ} (hk : k < count) :
    (words.getD k 0).toBitVec = W (count - 1 - k) := by
  have hget := congrArg (fun l => l[k]?) h
  simp only [getElem?_map, getElem?_reverse, length_map, length_range, hk,
    getElem?_range (show count - 1 - k < count by omega), Option.map_some] at hget
  obtain ⟨word, hword, hvalue⟩ := Option.map_eq_some_iff.mp hget
  rw [getD_eq_getElem?_getD, hword, Option.getD_some, hvalue]

theorem Reversed.extend {i : ℕ} (h : Reversed (Sha2.schedule (Sha2.message block)) (16 + i) words) :
    Reversed (Sha2.schedule (Sha2.message block)) (16 + (i + 1)) (extend words) := by
  have hget : ∀ k j, k + j = 15 →
      (words.getD k 0).toBitVec = Sha2.schedule (Sha2.message block) (i + j) := by
    intro k j hk
    rw [h.getD (by omega), show 16 + i - 1 - k = i + j by omega]
  have hword : Sha2.schedule (Sha2.message block) (16 + i) =
      (words.getD 15 0).toBitVec + Sha2.smallSigma0 (words.getD 14 0).toBitVec +
        (words.getD 6 0).toBitVec + Sha2.smallSigma1 (words.getD 1 0).toBitVec := by
    rw [hget 15 0 rfl, hget 14 1 rfl, hget 6 9 rfl, hget 1 14 rfl, Nat.add_comm 16 i,
      Sha2.schedule_add, Nat.add_zero]
    ac_rfl
  rw [Reversed, Sha256.extend, map_cons, h, ← Nat.add_assoc, range_succ, map_append,
    reverse_append, map_singleton, reverse_singleton, singleton_append, hword,
    UInt32.toBitVec_add, UInt32.toBitVec_add, UInt32.toBitVec_add, toBitVec_smallSigma0,
    toBitVec_smallSigma1]

theorem Reversed.foldl_extend (h : Reversed (Sha2.schedule (Sha2.message block)) 16 words) (i : ℕ) :
    Reversed (Sha2.schedule (Sha2.message block)) (16 + i)
      ((List.range i).foldl (fun words _ => Sha256.extend words) words) := by
  induction i with
  | zero => exact h
  | succ i ih =>
    rw [range_succ, foldl_append, foldl_cons, foldl_nil]
    exact ih.extend

theorem schedule_toBitVec (hsize : block.length = 64) :
    (schedule (ofList block)).map UInt32.toBitVec =
      (List.range 64).map (Sha2.schedule (Sha2.message block)) := by
  have hfirst : Reversed (Sha2.schedule (Sha2.message block)) 16
      ((List.range 16).map fun index => loadBe32 (ofList block) (index * 4)).reverse := by
    rw [Reversed, map_reverse, map_map]
    refine congrArg List.reverse (map_congr_left fun t ht => ?_)
    have hlt := mem_range.mp ht
    rw [Sha2.schedule_of_lt _ hlt]
    exact toBitVec_loadBe32 hsize hlt
  have hall := hfirst.foldl_extend 48
  rw [Reversed] at hall
  rw [schedule, map_reverse, hall, reverse_reverse]

end Schedule

def Registers.toHash (s : Registers) : Sha2.Hash :=
  ⟨s.a.toBitVec, s.b.toBitVec, s.c.toBitVec, s.d.toBitVec, s.e.toBitVec, s.f.toBitVec,
    s.g.toBitVec, s.h.toBitVec⟩

theorem initial_toHash : initial.toHash = Sha2.initial := by
  have hwords : Sha2.initialWords = [initial.a.toBitVec, initial.b.toBitVec, initial.c.toBitVec,
      initial.d.toBitVec, initial.e.toBitVec, initial.f.toBitVec, initial.g.toBitVec,
      initial.h.toBitVec] := by
    rw [Sha2.initialWords, Sha2.primes_eq]
    exact Sha2.map_rootFraction (by decide) (by decide +kernel)
  rw [Sha2.initial, hwords]
  rfl

theorem constants_toBitVec : constants.map UInt32.toBitVec = Sha2.roundConstants := by
  rw [Sha2.roundConstants, Sha2.primes_eq]
  exact (Sha2.map_rootFraction (by decide) (by decide +kernel)).symm

section Compression
variable {block : List UInt8} {s : Registers}

theorem round_toHash {constant word : UInt32} {t : ℕ}
    (hconstant : constant.toBitVec = Sha2.roundConstants.getD t 0)
    (hword : word.toBitVec = Sha2.schedule (Sha2.message block) t) :
    (round s (constant, word)).toHash = Sha2.round (Sha2.message block) s.toHash t := by
  simp only [round, Registers.toHash, Sha2.round, UInt32.toBitVec_add, toBitVec_bigSigma0,
    toBitVec_bigSigma1, toBitVec_ch, toBitVec_maj, hconstant, hword]

theorem foldl_round {entries : List (UInt32 × UInt32)} {t : ℕ}
    (h : ∀ i entry, entries[i]? = some entry →
      entry.1.toBitVec = Sha2.roundConstants.getD (t + i) 0 ∧
        entry.2.toBitVec = Sha2.schedule (Sha2.message block) (t + i)) :
    (entries.foldl round s).toHash =
      (List.range' t entries.length).foldl (Sha2.round (Sha2.message block)) s.toHash := by
  induction entries generalizing s t with
  | nil => rfl
  | cons entry rest ih =>
    obtain ⟨hconstant, hword⟩ := h 0 entry rfl
    rw [Nat.add_zero] at hconstant hword
    have hrest : ∀ i entry, rest[i]? = some entry →
        entry.1.toBitVec = Sha2.roundConstants.getD (t + 1 + i) 0 ∧
          entry.2.toBitVec = Sha2.schedule (Sha2.message block) (t + 1 + i) := by
      intro i other hother
      rw [Nat.add_assoc, Nat.add_comm 1 i]
      exact h (i + 1) other hother
    rw [foldl_cons, ih hrest, length_cons, List.range'_succ, foldl_cons,
      ← round_toHash hconstant hword]

theorem transform_toHash (hsize : block.length = 64) :
    (transform s (ofList block)).toHash = Sha2.compress s.toHash (Sha2.message block) := by
  have hentries : ∀ i entry, (constants.zip (schedule (ofList block)))[i]? = some entry →
      entry.1.toBitVec = Sha2.roundConstants.getD (0 + i) 0 ∧
        entry.2.toBitVec = Sha2.schedule (Sha2.message block) (0 + i) := by
    intro i ⟨constant, word⟩ hentry
    obtain ⟨hconstant, hword⟩ := List.getElem?_zip_eq_some.mp hentry
    have hconstants := congrArg (fun l => l[i]?) constants_toBitVec
    have hwords := congrArg (fun l => l[i]?) (schedule_toBitVec hsize)
    simp only [List.getElem?_map, hconstant, hword, Option.map_some] at hconstants hwords
    obtain ⟨t, ht, hvalue⟩ := Option.map_eq_some_iff.mp hwords.symm
    obtain ⟨hlt, hindex⟩ := List.getElem?_eq_some_iff.mp ht
    rw [List.getElem_range] at hindex
    rw [Nat.zero_add, List.getD_eq_getElem?_getD, ← hconstants, Option.getD_some, ← hvalue, hindex]
    exact ⟨rfl, rfl⟩
  have hlength : (constants.zip (schedule (ofList block))).length = 64 := by
    have hwords := congrArg List.length (schedule_toBitVec hsize)
    rw [List.length_map, List.length_map, List.length_range] at hwords
    rw [List.length_zip, hwords]
    rfl
  have hrounds := foldl_round (s := s) hentries
  rw [hlength, ← List.range_eq_range'] at hrounds
  rw [Sha2.compress, ← hrounds]
  simp only [transform, Registers.toHash, UInt32.toBitVec_add, BitVec.add_comm]

end Compression

/-! ### Updates -/

def step (s : Registers) (block : List UInt8) : Registers := transform s (ofList block)

section Fill
variable {block bytes more : List UInt8} {start : ℕ}

theorem length_fill (h : start + bytes.length ≤ block.length) :
    (fill block start bytes).length = block.length := by
  simp only [fill, length_append, length_take, length_drop]
  omega

theorem take_fill (h : start ≤ block.length) :
    (fill block start bytes).take (start + bytes.length) = block.take start ++ bytes := by
  have hlength : (block.take start ++ bytes).length = start + bytes.length := by
    rw [length_append, length_take, Nat.min_eq_left h]
  rw [fill, ← hlength, take_left]

theorem fill_end (h : start + bytes.length = block.length) :
    fill block start bytes = block.take start ++ bytes := by
  rw [fill, h, drop_length, append_nil]

theorem fill_fill {next : ℕ} (hnext : next = start + bytes.length) (h : next ≤ block.length) :
    fill (fill block start bytes) next more = fill block start (bytes ++ more) := by
  subst hnext
  have hlength : (block.take start ++ bytes).length = start + bytes.length := by
    rw [length_append, length_take, Nat.min_eq_left (by omega)]
  have hdrop : (fill block start bytes).drop (start + bytes.length + more.length) =
      block.drop (start + (bytes ++ more).length) := by
    rw [fill, ← hlength, drop_length_add_append, hlength, drop_drop, length_append,
      Nat.add_assoc]
  rw [fill, take_fill (by omega), hdrop, fill]
  simp only [append_assoc]

theorem fill_mark (h : start + 1 ≤ block.length) :
    fill (fill block start [0x80]) (start + 1) more = fill block start ([0x80] ++ more) :=
  fill_fill rfl h

end Fill

/-- The whole blocks of the data are in the state, the rest is in the block. -/
structure Absorbed (data : List UInt8) (context : Context) : Prop where
  size : context.block.length = 64
  blockSize : context.blockSize < 64
  buffered : Buffered 64 step initial data context.state (context.block.take context.blockSize)

section Updates
variable {data bytes : List UInt8} {context : Context}

theorem Absorbed.length_rest (h : Absorbed data context) :
    (context.block.take context.blockSize).length = context.blockSize := by
  have hsize := h.size
  have hlt := h.blockSize
  rw [length_take]
  omega

theorem Absorbed.pass (h : Absorbed data context)
    (hfits : context.blockSize + bytes.length ≤ 64) :
    Absorbed (data ++ bytes)
      (if context.blockSize + bytes.length = 64 then
        { context with
          state := transform context.state (ofList (fill context.block context.blockSize bytes))
          block := fill context.block context.blockSize bytes
          blockSize := 0 }
      else
        { context with
          block := fill context.block context.blockSize bytes
          blockSize := context.blockSize + bytes.length }) := by
  have hsize := h.size
  have hrest := h.length_rest
  have hlength : (context.block.take context.blockSize ++ bytes).length =
      context.blockSize + bytes.length := by
    rw [length_append, hrest]
  have hblock : (fill context.block context.blockSize bytes).length = 64 := by
    rw [length_fill (by omega), hsize]
  split_ifs with hfull
  · refine ⟨hblock, Nat.zero_lt_succ 63, ?_⟩
    have hconsume := h.buffered.consume (hlength.trans hfull)
    rw [← fill_end (by omega)] at hconsume
    exact hconsume
  · refine ⟨hblock, by dsimp only; omega, ?_⟩
    have hwait := h.buffered.wait (hlength.trans_lt (by omega))
    rw [← take_fill (by omega)] at hwait
    exact hwait

theorem absorb_spec {passes : ℕ} (hpasses : bytes.length ≤ passes) (h : Absorbed data context) :
    Absorbed (data ++ bytes) (absorb passes context bytes) ∧
      (absorb passes context bytes).byteCount = context.byteCount := by
  induction passes generalizing data bytes context with
  | zero =>
    obtain rfl := length_eq_zero_iff.mp (Nat.le_zero.mp hpasses)
    rw [append_nil]
    exact ⟨h, rfl⟩
  | succ passes ih =>
    rw [absorb]
    split_ifs with hempty
    · obtain rfl := length_eq_zero_iff.mp hempty
      rw [append_nil]
      exact ⟨h, rfl⟩
    · dsimp only
      generalize htake : (if bytes.length < 64 - context.blockSize then bytes.length
        else 64 - context.blockSize) = take
      have hblockSize := h.blockSize
      have hbounds : 0 < take ∧ take ≤ bytes.length ∧ context.blockSize + take ≤ 64 := by
        split_ifs at htake <;> omega
      have hpiece : (bytes.take take).length = take := by
        rw [length_take]
        omega
      have hpass := h.pass (hpiece.symm ▸ hbounds.2.2)
      rw [hpiece] at hpass
      have hleft : (bytes.drop take).length ≤ passes := by
        rw [length_drop]
        omega
      obtain ⟨habsorbed, hcount⟩ := ih hleft hpass
      rw [append_assoc, take_append_drop] at habsorbed
      refine ⟨habsorbed, hcount.trans ?_⟩
      split_ifs <;> rfl

/-- The bytes are counted as well. -/
structure Fed (data : List UInt8) (context : Context) : Prop extends Absorbed data context where
  count : context.byteCount.toNat = data.length

theorem initialized_fed : Fed [] initialized :=
  ⟨⟨rfl, Nat.zero_lt_succ 63, buffered_nil (Nat.zero_lt_succ 63)⟩, rfl⟩

theorem Fed.update (h : Fed data context) (hlength : (data ++ bytes).length < 2 ^ 64) :
    Fed (data ++ bytes) (update context bytes) := by
  have hcount := h.count
  rw [length_append] at hlength
  have hadded : (context.byteCount + .ofNat bytes.length).toNat = (data ++ bytes).length := by
    rw [UInt64.toNat_add, UInt64.toNat_ofNat', hcount, length_append,
      Nat.mod_eq_of_lt (by omega : bytes.length < 2 ^ 64), Nat.mod_eq_of_lt hlength]
  rw [Sha256.update, if_neg (by omega)]
  have hcounted : Absorbed data
      { context with byteCount := context.byteCount + .ofNat bytes.length } :=
    ⟨h.size, h.blockSize, h.buffered⟩
  obtain ⟨habsorbed, hbyteCount⟩ := absorb_spec (Nat.le_refl _) hcounted
  exact ⟨habsorbed, (congrArg UInt64.toNat hbyteCount).trans hadded⟩

theorem Fed.foldl_update {chunks : List (List UInt8)} (h : Fed data context)
    (hlength : (data ++ chunks.flatten).length < 2 ^ 64) :
    Fed (data ++ chunks.flatten) (chunks.foldl Sha256.update context) := by
  induction chunks generalizing data context with
  | nil =>
    rw [flatten_nil, append_nil]
    exact h
  | cons chunk rest ih =>
    rw [flatten_cons, ← append_assoc] at hlength ⊢
    refine ih (h.update ?_) hlength
    rw [length_append] at hlength
    omega

/-! ### Padding -/

def tail (zeros : ℕ) (bitCount : UInt64) : List UInt8 :=
  [0x80] ++ List.replicate zeros 0 ++ bitCountBytes bitCount

theorem pad_message {zeros : ℕ} {bitCount : UInt64} (hlt : zeros < 64)
    (hzeros : (data.length + 1 + zeros) % 64 = 56) (hcount : bitCount.toNat = 8 * data.length) :
    Sha2.pad (Sha2.message data) = Sha2.message (data ++ tail zeros bitCount) := by
  have hpadding : Sha2.paddingZeros (Sha2.message data).length = 7 + 8 * zeros := by
    rw [Sha2.length_message]
    exact Sha2.paddingZeros_eq (by omega) (by omega)
  have hone : Sha2.message [0x80] = [true] ++ List.replicate 7 false := by decide
  rw [Sha2.pad, hpadding, Sha2.length_message, ← hcount, ← message_bitCountBytes, tail,
    Sha2.message_append, Sha2.message_append, Sha2.message_append, Sha2.message_zeros, hone,
    replicate_add]
  simp only [append_assoc]

theorem length_tail (zeros : ℕ) (bitCount : UInt64) :
    (tail zeros bitCount).length = 9 + zeros := by
  simp [tail, bitCountBytes]
  omega

theorem length_bitCountBytes (bitCount : UInt64) : (bitCountBytes bitCount).length = 8 := rfl

theorem Absorbed.finish_short (h : Absorbed data context) (hroom : context.blockSize + 1 ≤ 56) :
    ∃ s, Sha256.finish context = s.digest ∧
      Buffered 64 step initial
        (data ++ tail (55 - context.blockSize) (context.byteCount * 8)) s [] := by
  have hsize := h.size
  have hrest := h.length_rest
  have hlength := length_tail (55 - context.blockSize) (context.byteCount * 8)
  have hblock : fill (fill (fill context.block context.blockSize [0x80]) (context.blockSize + 1)
      (List.replicate (56 - (context.blockSize + 1)) 0)) 56
        (bitCountBytes (context.byteCount * 8)) =
      context.block.take context.blockSize ++
        tail (55 - context.blockSize) (context.byteCount * 8) := by
    rw [fill_mark (by omega), fill_fill (by simp; omega) (by omega),
      show 56 - (context.blockSize + 1) = 55 - context.blockSize by omega]
    exact fill_end (by rw [← tail, hlength]; omega)
  refine ⟨step context.state (context.block.take context.blockSize ++
    tail (55 - context.blockSize) (context.byteCount * 8)), ?_, h.buffered.consume ?_⟩
  · rw [Sha256.finish]
    simp only [if_neg (Nat.not_lt.mpr hroom), hblock]
    rfl
  · rw [length_append]
    omega

theorem Absorbed.finish_long (h : Absorbed data context) (hroom : 56 < context.blockSize + 1) :
    ∃ s, Sha256.finish context = s.digest ∧
      Buffered 64 step initial
        (data ++ tail (119 - context.blockSize) (context.byteCount * 8)) s [] := by
  have hsize := h.size
  have hlt := h.blockSize
  have hrest := h.length_rest
  have hfirst : fill (fill context.block context.blockSize [0x80]) (context.blockSize + 1)
      (List.replicate (64 - (context.blockSize + 1)) 0) =
      context.block.take context.blockSize ++
        ([0x80] ++ List.replicate (63 - context.blockSize) 0) := by
    rw [fill_mark (by omega), show 64 - (context.blockSize + 1) = 63 - context.blockSize by omega]
    exact fill_end (by simp; omega)
  have hlast : ∀ block : List UInt8, block.length = 64 →
      fill (fill block 0 (List.replicate (56 - 0) 0)) 56 (bitCountBytes (context.byteCount * 8)) =
        List.replicate 56 0 ++ bitCountBytes (context.byteCount * 8) := by
    intro block hblock
    rw [fill_fill (by simp) (by omega), fill_end, take_zero, nil_append]
    rw [hblock, length_append, length_replicate, length_bitCountBytes]
  have hfull : (context.block.take context.blockSize ++
      ([0x80] ++ List.replicate (63 - context.blockSize) 0)).length = 64 := by
    simp only [length_append, hrest, length_singleton, length_replicate]
    omega
  -- The tail is consumed in two blocks.
  have htail : tail (119 - context.blockSize) (context.byteCount * 8) =
      ([0x80] ++ List.replicate (63 - context.blockSize) 0) ++
        (List.replicate 56 0 ++ bitCountBytes (context.byteCount * 8)) := by
    rw [tail, show 119 - context.blockSize = 63 - context.blockSize + 56 by omega,
      replicate_add]
    simp only [append_assoc]
  have hcount : ([] ++ (List.replicate 56 0 ++ bitCountBytes (context.byteCount * 8))).length =
      64 := rfl
  have hbuffered := (h.buffered.consume hfull).consume hcount
  rw [append_assoc, ← htail, nil_append] at hbuffered
  refine ⟨_, ?_, hbuffered⟩
  rw [Sha256.finish]
  simp only [if_pos hroom, hfirst, hlast _ hfull]
  rfl

end Updates

theorem foldChunks_message (s : Registers) (bytes : List UInt8) :
    foldChunks 512 Sha2.compress s.toHash (Sha2.message bytes) =
      (foldChunks 64 step s bytes).toHash := by
  have hbits : foldChunks (8 * 64) Sha2.compress s.toHash (bytes.flatMap Sha2.byteBits) =
      foldChunks 64 (fun state chunk => Sha2.compress state (chunk.flatMap Sha2.byteBits))
        s.toHash bytes := foldChunks_flatMap (by decide) Sha2.length_byteBits
  exact hbits.trans (map_foldChunks fun state chunk hchunk => transform_toHash hchunk).symm

theorem message_digest (s : Registers) : Sha2.message s.digest.bytes = s.toHash.digest := by
  simp only [Registers.digest, Sha2.message_append, message_storeBe32, Sha2.Hash.digest,
    flatMap_cons, flatMap_nil, append_nil, append_assoc]
  rfl

theorem Fed.standard {data : List UInt8} {context : Context} (h : Fed data context)
    (hlength : data.length < 2 ^ 61) :
    Sha2.message (Sha256.finish context).bytes = Sha2.sha256 (Sha2.message data) := by
  have hrest := h.buffered.length_rest
  rw [h.length_rest] at hrest
  have hlt := h.blockSize
  have hcount : (context.byteCount * 8).toNat = 8 * data.length := by
    rw [UInt64.toNat_mul, h.count]
    show data.length * 8 % 2 ^ 64 = 8 * data.length
    omega
  have hdigest : ∀ {zeros : ℕ} {s : Registers}, zeros < 64 →
      (data.length + 1 + zeros) % 64 = 56 → Sha256.finish context = s.digest →
      Buffered 64 step initial (data ++ tail zeros (context.byteCount * 8)) s [] →
      Sha2.message (Sha256.finish context).bytes = Sha2.sha256 (Sha2.message data) := by
    intro zeros s hzeros hfills hfinish hbuffered
    rw [Sha2.sha256, pad_message hzeros hfills hcount, ← initial_toHash, foldChunks_message,
      hbuffered.foldChunks_eq, hfinish, message_digest]
  rcases Nat.lt_or_ge 56 (context.blockSize + 1) with hroom | hroom
  · obtain ⟨s, hfinish, hbuffered⟩ := h.finish_long hroom
    exact hdigest (by omega) (by omega) hfinish hbuffered
  · obtain ⟨s, hfinish, hbuffered⟩ := h.finish_short hroom
    exact hdigest (by omega) (by omega) hfinish hbuffered

/-- However a string is split into updates, its digest is the one of the standard. -/
theorem sha256_standard {chunks : List (List UInt8)} (hlength : chunks.flatten.length < 2 ^ 61) :
    Sha2.message (finish (chunks.foldl update initialized)).bytes =
        Sha2.sha256 (Sha2.message chunks.flatten) ∧
      sha256 chunks.flatten = finish (chunks.foldl update initialized) := by
  have hfed : ∀ pieces : List (List UInt8), pieces.flatten.length < 2 ^ 61 →
      Fed pieces.flatten (pieces.foldl update initialized) :=
    fun pieces hpieces => initialized_fed.foldl_update (by rw [nil_append]; omega)
  have hall := (hfed chunks hlength).standard hlength
  have hwhole := hfed [chunks.flatten] (by rwa [flatten_singleton])
  rw [flatten_singleton] at hwhole
  refine ⟨hall, Digest.ext (Sha2.message_injective ?_)⟩
  exact (hwhole.standard hlength).trans hall.symm

theorem sha256_abc : sha256 [0x61, 0x62, 0x63] =
    finish (update (update (update initialized [0x61]) []) [0x62, 0x63]) := by
  have hlength : [[0x61], [], [0x62, (0x63 : UInt8)]].flatten.length < 2 ^ 61 := by decide
  exact (sha256_standard hlength).2

end Sha256

end Kobox.Protocol
