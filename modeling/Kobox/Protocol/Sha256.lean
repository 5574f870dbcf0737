import Kobox.Protocol.Words

/-!
# SHA-256 (`protocol/src/sha256.c`)

The context, with the block that is being filled, and the three calls on it. NULL arguments,
which the calls refuse, are left out.
-/

namespace Kobox.Protocol
open ByteMemory

namespace Sha256

def rotateRight (value shift : UInt32) : UInt32 := (value >>> shift) ||| (value <<< (32 - shift))

def loadBe32 (m : Memory) (a : ℕ) : UInt32 :=
  (m a).toUInt32 <<< 24 ||| (m (a + 1)).toUInt32 <<< 16 ||| (m (a + 2)).toUInt32 <<< 8 |||
    (m (a + 3)).toUInt32

def storeBe32 (value : UInt32) : List UInt8 :=
  [(value >>> 24).toUInt8, (value >>> 16).toUInt8, (value >>> 8).toUInt8, value.toUInt8]

def constants : List UInt32 :=
  [0x428a2f98, 0x71374491, 0xb5c0fbcf, 0xe9b5dba5, 0x3956c25b, 0x59f111f1,
    0x923f82a4, 0xab1c5ed5, 0xd807aa98, 0x12835b01, 0x243185be, 0x550c7dc3,
    0x72be5d74, 0x80deb1fe, 0x9bdc06a7, 0xc19bf174, 0xe49b69c1, 0xefbe4786,
    0x0fc19dc6, 0x240ca1cc, 0x2de92c6f, 0x4a7484aa, 0x5cb0a9dc, 0x76f988da,
    0x983e5152, 0xa831c66d, 0xb00327c8, 0xbf597fc7, 0xc6e00bf3, 0xd5a79147,
    0x06ca6351, 0x14292967, 0x27b70a85, 0x2e1b2138, 0x4d2c6dfc, 0x53380d13,
    0x650a7354, 0x766a0abb, 0x81c2c92e, 0x92722c85, 0xa2bfe8a1, 0xa81a664b,
    0xc24b8b70, 0xc76c51a3, 0xd192e819, 0xd6990624, 0xf40e3585, 0x106aa070,
    0x19a4c116, 0x1e376c08, 0x2748774c, 0x34b0bcb5, 0x391c0cb3, 0x4ed8aa4a,
    0x5b9cca4f, 0x682e6ff3, 0x748f82ee, 0x78a5636f, 0x84c87814, 0x8cc70208,
    0x90befffa, 0xa4506ceb, 0xbef9a3f7, 0xc67178f2]

/-- `state[8]`, and the eight variables of `transform`. -/
structure Registers where
  a : UInt32
  b : UInt32
  c : UInt32
  d : UInt32
  e : UInt32
  f : UInt32
  g : UInt32
  h : UInt32
  deriving DecidableEq, Repr

def initial : Registers :=
  ⟨0x6a09e667, 0xbb67ae85, 0x3c6ef372, 0xa54ff53a, 0x510e527f, 0x9b05688c, 0x1f83d9ab, 0x5be0cd19⟩

/-- One pass of the loop that extends `words`, of which the last is at the head: `words[index - k]`
is at position `k - 1`. -/
def extend (words : List UInt32) : List UInt32 :=
  let w15 := words.getD 14 0
  let w2 := words.getD 1 0
  let s0 := rotateRight w15 7 ^^^ rotateRight w15 18 ^^^ (w15 >>> 3)
  let s1 := rotateRight w2 17 ^^^ rotateRight w2 19 ^^^ (w2 >>> 10)
  (words.getD 15 0 + s0 + words.getD 6 0 + s1) :: words

/-- `words[64]`. -/
def schedule (block : Memory) : List UInt32 :=
  let words := (List.range 16).map fun index => loadBe32 block (index * 4)
  ((List.range 48).foldl (fun words _ => extend words) words.reverse).reverse

/-- One pass of the compression loop, with `constants[index]` and `words[index]`. -/
def round (s : Registers) (entry : UInt32 × UInt32) : Registers :=
  let (constant, word) := entry
  let sum1 := rotateRight s.e 6 ^^^ rotateRight s.e 11 ^^^ rotateRight s.e 25
  let choice := (s.e &&& s.f) ^^^ (~~~s.e &&& s.g)
  let temporary1 := s.h + sum1 + choice + constant + word
  let sum0 := rotateRight s.a 2 ^^^ rotateRight s.a 13 ^^^ rotateRight s.a 22
  let majority := (s.a &&& s.b) ^^^ (s.a &&& s.c) ^^^ (s.b &&& s.c)
  let temporary2 := sum0 + majority
  { a := temporary1 + temporary2, b := s.a, c := s.b, d := s.c
    e := s.d + temporary1, f := s.e, g := s.f, h := s.g }

def transform (state : Registers) (block : Memory) : Registers :=
  let s := (constants.zip (schedule block)).foldl round state
  { a := state.a + s.a, b := state.b + s.b, c := state.c + s.c, d := state.d + s.d
    e := state.e + s.e, f := state.f + s.f, g := state.g + s.g, h := state.h + s.h }

structure Context where
  state : Registers
  byteCount : UInt64
  block : List UInt8
  blockSize : ℕ
  deriving DecidableEq, Repr

/-- The context after `kb2_sha256_initialize`. -/
def initialized : Context := ⟨initial, 0, List.replicate 64 0, 0⟩

/-- The block with some of its bytes replaced, as by `memcpy` or `memset`. -/
def fill (block : List UInt8) (start : ℕ) (bytes : List UInt8) : List UInt8 :=
  block.take start ++ bytes ++ block.drop (start + bytes.length)

/-- The loop of `kb2_sha256_update`. Each pass takes a byte or more, so that as many passes as
there are bytes are enough. -/
def absorb : ℕ → Context → List UInt8 → Context
  | 0, context, _ => context
  | passes + 1, context, bytes =>
    if bytes.length = 0 then context
    else
      let available := 64 - context.blockSize
      let take := if bytes.length < available then bytes.length else available
      let block := fill context.block context.blockSize (bytes.take take)
      let blockSize := context.blockSize + take
      let context := if blockSize = 64 then
          { context with state := transform context.state (ofList block), block, blockSize := 0 }
        else { context with block, blockSize }
      absorb passes context (bytes.drop take)

def update (context : Context) (data : List UInt8) : Context :=
  if data.length > 2 ^ 64 - 1 - context.byteCount.toNat then context
  else
    absorb data.length
      { context with byteCount := context.byteCount + .ofNat data.length } data

def bitCountBytes (bitCount : UInt64) : List UInt8 :=
  [(bitCount >>> 56).toUInt8, (bitCount >>> 48).toUInt8, (bitCount >>> 40).toUInt8,
    (bitCount >>> 32).toUInt8, (bitCount >>> 24).toUInt8, (bitCount >>> 16).toUInt8,
    (bitCount >>> 8).toUInt8, bitCount.toUInt8]

def Registers.digest (s : Registers) : Digest :=
  ⟨storeBe32 s.a ++ storeBe32 s.b ++ storeBe32 s.c ++ storeBe32 s.d ++ storeBe32 s.e ++
    storeBe32 s.f ++ storeBe32 s.g ++ storeBe32 s.h, rfl⟩

def finish (context : Context) : Digest :=
  let bitCount := context.byteCount * 8
  let block := fill context.block context.blockSize [0x80]
  let blockSize := context.blockSize + 1
  let (state, block, blockSize) := if blockSize > 56 then
      let block := fill block blockSize (List.replicate (64 - blockSize) 0)
      (transform context.state (ofList block), block, 0)
    else (context.state, block, blockSize)
  let block := fill block blockSize (List.replicate (56 - blockSize) 0)
  let block := fill block 56 (bitCountBytes bitCount)
  (transform state (ofList block)).digest

end Sha256

def sha256 (data : List UInt8) : Digest := Sha256.finish (Sha256.update Sha256.initialized data)

end Kobox.Protocol
