import Vesal.Library.PolynomialRegister

/-!
# Checksums

The portable paths of `checksum_impl.cc`. `uint32_t` and `uint64_t` values that are
polynomials or hash states are bit vectors, lengths (`size_t`) are natural numbers.
-/

namespace Vesal

open Library

def kCrc32cInitialValue : BitVec 32 := 0xFFFFFFFF
def kCrc32cPolyReflect : BitVec 32 := 0x82f63b78

/-- The `crc32b` instruction: eight shifts of the register after adding the byte. -/
def crc32b (crc : BitVec 32) (byte : UInt8) : BitVec 32 :=
  (mulX kCrc32cPolyReflect)^[8] (crc ^^^ byte.toBitVec.setWidth 32)

def crcUpdate (crc : BitVec 32) (s : List UInt8) : BitVec 32 := s.foldl crc32b crc

def load64 (bytes : List UInt8) : BitVec 64 :=
  bytes.foldr (fun b acc => acc <<< 8 ||| b.toBitVec.setWidth 64) 0

def quadByte (quad : BitVec 64) (i : Nat) : UInt8 := ⟨(quad >>> (8 * i)).setWidth 8⟩

/-- The `crc32q` instruction: the low half of the register takes the eight bytes of the
operand, lowest first; the high half of the result is zero. -/
def crc32q (crc64 quad : BitVec 64) : BitVec 64 :=
  (crcUpdate (crc64.setWidth 32) ((List.range 8).map (quadByte quad))).setWidth 64

def crcQuadLoop : Nat → List UInt8 → BitVec 64 → List UInt8 × BitVec 64
  | 0, buf, crc64 => (buf, crc64)
  | n + 1, buf, crc64 => crcQuadLoop n (buf.drop 8) (crc32q crc64 (load64 (buf.take 8)))

def computeCRC32 (initCrc : BitVec 32) (buf : List UInt8) : BitVec 32 :=
  let (rest, crc64) := crcQuadLoop (buf.length >>> 3) buf (initCrc.setWidth 64)
  rest.foldl crc32b (crc64.setWidth 32)

/-- The first loop on a memory, with the addresses that it reads. -/
def quadLoopAt (mem : Nat → UInt8) : Nat → Nat → BitVec 64 → List Nat → Nat × BitVec 64 × List Nat
  | 0, p, crc64, reads => (p, crc64, reads)
  | n + 1, p, crc64, reads =>
    quadLoopAt mem n (p + 8) (crc32q crc64 (load64 ((List.range' p 8).map mem))) (reads ++ List.range' p 8)

def byteLoopAt (mem : Nat → UInt8) : Nat → Nat → BitVec 32 → List Nat → BitVec 32 × List Nat
  | 0, _, crc, reads => (crc, reads)
  | n + 1, p, crc, reads => byteLoopAt mem n (p + 1) (crc32b crc (mem p)) (reads ++ [p])

def computeCRC32At (mem : Nat → UInt8) (initCrc : BitVec 32) (buf size : Nat) : BitVec 32 × List Nat :=
  let (p, crc64, reads) := quadLoopAt mem (size >>> 3) buf (initCrc.setWidth 64) []
  byteLoopAt mem (buf + size - p) p (crc64.setWidth 32) reads

/-- Faults of the combination: an index outside `kCRC32X64NTable`, an entry without an initialiser, or
a loop that does not end. -/
inductive CombineFault where
  | outOfTable (index : Nat)
  | unsetEntry (index : Nat)
  | endlessLoop
deriving DecidableEq, Repr

def kCRC32X64NInitialiser : List (BitVec 32) :=
  [
    0x80000000, 0x00800000, 0x00008000, 0x00000080, 0x82f63b78, 0xfbc3faf9, 0x8b277743, 0x52a0c93f,
    0x6ea2d55c, 0x1c08b7d6, 0xf56e0ef4, 0x34019664, 0xa66805eb, 0x7a1f6b24, 0xe75d06aa, 0xc94ec098,
    0x18b8ea18, 0x9a9f274a, 0x2a03aaa3, 0xb13145f8, 0x790606ff, 0xad045557, 0x8542ba6d, 0xde6b9d0b,
    0x9957c0a6, 0x8473058e, 0x2e0af75a, 0x3ae9f81c, 0x5d27e147, 0x95ec5eb6, 0x9421797f, 0x2f1f4950,
    0x510ac59a, 0xf91bdeea, 0x882b9bfc, 0xbea58b3e, 0x9c25531d, 0xafeaaeef, 0xbd8c7e90, 0x92157069,
    0x19e65dde, 0x7fb2b8d1, 0x21c7d010, 0x107f00bf, 0xec1631ed, 0x5cf4f2f8, 0x79ebc348, 0xcbdbaeb0,
    0xb2dea967, 0xb5be2920, 0x200830f7, 0x278403ae, 0x0e148e82, 0x63c35f01, 0xf208405c, 0x1c941d43,
    0x52377a55, 0x6486f9b5, 0x8780e02c, 0x6d79c1ee, 0x4f256efc, 0xbe6285cb, 0x5abaef7a, 0x1a20c6da,
    0x80000000, 0xb82be955, 0xb8fdb1e7, 0x18e4a304, 0x88e56f72, 0x9030a49c, 0x67db2c4a, 0xe744dcb2,
    0x74c360a4, 0x8e9906a7, 0xb469724f, 0x24d84074, 0x631bb273, 0xee2a2d56, 0x654f84e7, 0x629069c6,
    0xe4172b16, 0xd3cb2137, 0x4f47bf52, 0x35202632, 0x71892b1b, 0xd27285db, 0x69c2af09, 0xd271158e,
    0x835305c9, 0xeaa500ac, 0x0e36a726, 0x46951631, 0x196b1eae, 0x584ea70d, 0x15e8653c, 0xb5a65826,
    0x0d65762a, 0xebfcce28, 0xe6aef08f, 0x013ee85b, 0xafc81338, 0x61c30b85, 0xe31e7f5b, 0x5e3750cd,
    0xb5a50ab7, 0x1977c75d, 0x46bf959e, 0xe78cd046, 0xf373c3ac, 0x950979dd, 0xe31b4008, 0xc726c863,
    0x5f60970f, 0xf977f383, 0x9e7b1c10, 0xea2110f8, 0xd46d3063, 0xe2220529, 0xebd59d26, 0xedbe69a1,
    0x3a5275ea, 0x1a2bbe21, 0xd597ad7e, 0xcb8c45a6, 0x02331c01, 0xe8639712, 0xa957c550, 0xbcfda51c,
    0x80000000, 0x35d73a62, 0x28461564, 0x43eefc9f, 0xbf455269, 0x5edcdeb9, 0x65059450, 0x4e6f41a4,
    0xe2ea32dc, 0xf5b95b32, 0x695a4c87, 0xf204502c, 0x9a4f01b6, 0x941a0916, 0x4303cb97, 0x4c3d3d65,
    0xfe7740e6, 0xf0cb95d2, 0xab4c722a, 0xba35e2e1, 0x99569602, 0x294060e6, 0xd65a1d78, 0x18103ff9,
    0x78b57ca2, 0x97b3a098, 0x30a8edff, 0x3fb4e611, 0x999dcda1, 0xd9dd2e27, 0x5918f954, 0x8ee73513,
    0xf946610b, 0xa5f4742d, 0x424b8555, 0xd017c143, 0xc274d1e2, 0x0280b04e, 0xd25bb5e0, 0x552a0918,
    0xf5942afb, 0x55d7a3f8, 0xd1b533ee, 0x9fa8def5, 0x24c42589, 0x5988dbb3, 0xa7e1cab4, 0xebaee1b4,
    0xa0a51f5f, 0xbd1a9096, 0x1ced05cc, 0x6748e206, 0x506431b0, 0x6c399e24, 0x30af367f, 0x129ee2f5,
    0x8fd57416, 0x85ee5ed0, 0x97504a07, 0x52e710c7, 0x4ea3e89b, 0xde8567b5, 0xb5c84194, 0x80526793,
    0x80000000, 0x3c204f8f, 0x538586e3, 0x683988b2, 0x59726915, 0x30c6966d, 0x5be8b36e, 0x42c5623c,
    0x734d5309, 0x1084fed0, 0x68a5f0f9, 0x1573fe60, 0xdb1b3315, 0xe0a82539, 0xe5c304f7, 0xce8068d1,
    0xbc1ac763, 0x47514f16, 0xf7f919a7, 0x5005a217, 0x11b31f9d, 0x496f21b8, 0x0bc2a806, 0xbba39916,
    0x5414bce3, 0x401f0313, 0xe0ee85d5, 0x4fb6f7ac, 0x54f2f77b, 0x738279cb, 0x6b645133, 0x05a44de1,
    0x7d0722cc, 0x8ca9c7c7, 0x50806311, 0x58ba16a0, 0xbae70d08, 0xde3a8229, 0x6652a6cc, 0x36b6490b,
    0x238acb2b, 0xe3f9a08b, 0x23a7923f, 0xb0609b9b, 0xd2074e2b, 0x342f6e39, 0x5bcf2cf2, 0x8096907d,
    0x546dfa6e, 0x75337ed4, 0x9c1de396, 0x91e7afe7, 0x3f76a96c, 0x00032b5e, 0x1a2a93d0, 0x3b0c8728,
    0xa3aa3946, 0x9b170192, 0xcc33e9f6, 0x4152bdb8, 0xf054ca48, 0x0369fe6a, 0x6ec7bef8, 0x3fe8b9ff,
    0x80000000, 0xd289cabe, 0xe94ca9bc, 0x6ac5538f, 0x05b74f3f, 0x9e0b2298, 0x14de47cd, 0x3a9fb07d,
    0xa51e1f42, 0xfe578179, 0x038d778c, 0x5fe3cf44, 0xb7c64e40, 0x20cbb8e3, 0x4f04f803, 0x56745358,
    0x40000000, 0x6944e55f, 0x74a654de, 0xb79492bf, 0x802d9ce7, 0x4f05914c, 0x8899189e, 0x9fb9e346,
    0x528f0fa1, 0xfdddfbc4, 0x01c6bbc6, 0x2ff1e7a2, 0x5be32720, 0x9293e709, 0xa5744779, 0x2b3a29ac,
    0x20000000, 0xb65449d7, 0x3a532a6f, 0xd93c7227, 0xc2e0f50b, 0x2782c8a6, 0x444c8c4f, 0x4fdcf1a3,
    0xabb1bca8, 0x7eeefde2, 0x00e35de3, 0x17f8f3d1, 0x2df19390, 0xcbbfc8fc, 0xd04c18c4, 0x159d14d6,
    0x10000000, 0xd9dc1f93, 0x9fdfae4f, 0xee68026b, 0xe38641fd, 0x13c16453, 0xa0d07d5f, 0xa51843a9,
    0x55d8de54, 0x3f777ef1, 0x82879589, 0x890a4290, 0x16f8c9c8, 0x65dfe47e, 0x68260c62, 0x0ace8a6b,
    0x80000000, 0x08000000, 0x00800000, 0x00080000]

/-- The table has `64 * 6` entries; those without an initialiser are zero. -/
def kCRC32X64NTable : List (BitVec 32) := kCRC32X64NInitialiser ++ List.replicate 60 0

def tableEntry (index : Nat) : Except CombineFault (BitVec 32) :=
  match kCRC32X64NTable[index]? with
  | none => .error (.outOfTable index)
  | some entry => if entry = 0 then .error (.unsetEntry index) else .ok entry

/-- The loop of `crc32Mult`. After 32 passes `m` stays zero: neither `a & m` nor the exit test can hold
again. -/
def crc32MultLoop (a : BitVec 32) : Nat → BitVec 32 → BitVec 32 → BitVec 32 →
    Except CombineFault (BitVec 32)
  | 0, _, _, _ => .error .endlessLoop
  | fuel + 1, m, p, b =>
    let next := if b &&& 1 ≠ 0 then (b >>> 1) ^^^ kCrc32cPolyReflect else b >>> 1
    if a &&& m ≠ 0 then
      if a &&& (m - 1) = 0 then .ok (p ^^^ b) else crc32MultLoop a fuel (m >>> 1) (p ^^^ b) next
    else crc32MultLoop a fuel (m >>> 1) p next

def crc32Mult (a b : BitVec 32) : Except CombineFault (BitVec 32) :=
  crc32MultLoop a 32 0x80000000 0 b

/-- One folding of the length, `x ^ (2 ^ 31)` being `x`. -/
def foldLength (len : Nat) : Nat :=
  if 2 ^ 31 ≤ len then (len &&& (2 ^ 31 - 1)) + (len >>> 31) else len

/-- `for (; !(len & 63); len >>= 6, i++)`. A non-zero 64-bit length has a non-zero group
of six bits among the first eleven. -/
def skipZeroGroups : Nat → Nat → Nat → Except CombineFault (Nat × Nat)
  | 0, _, _ => .error .endlessLoop
  | fuel + 1, len, i =>
    if len &&& 63 = 0 then skipZeroGroups fuel (len >>> 6) (i + 1) else .ok (len, i)

def multiplyGroups : Nat → Nat → Nat → BitVec 32 → Except CombineFault (BitVec 32)
  | 0, _, _, _ => .error .endlessLoop
  | fuel + 1, len, i, p =>
    if len = 0 then .ok p
    else if len &&& 63 = 0 then multiplyGroups fuel (len >>> 6) (i + 1) p
    else do
      let entry ← tableEntry (i * 64 + (len &&& 63))
      let p ← crc32Mult entry p
      multiplyGroups fuel (len >>> 6) (i + 1) p

def crc32CombineGen (len : Nat) : Except CombineFault (BitVec 32) := do
  let len := foldLength (foldLength len)
  if len = 0 then return 0x80000000
  let (len, i) ← skipZeroGroups 11 len 0
  let p ← tableEntry (i * 64 + (len &&& 63))
  multiplyGroups 12 (len >>> 6) (i + 1) p

def crc32CombineOp (crc1 crc2 op : BitVec 32) : Except CombineFault (BitVec 32) := do
  return (← crc32Mult op crc1) ^^^ crc2

def crc32Combine (crc1 crc2 : BitVec 32) (size2 : Nat) : Except CombineFault (BitVec 32) := do
  crc32CombineOp crc1 crc2 (← crc32CombineGen size2)

def combineThreeCRC32 (initValue crc1 crc2 crc3 : BitVec 32) (size2 size3 : Nat) :
    Except CombineFault (BitVec 32) := do
  let crc12 ← crc32Combine (initValue ^^^ crc1) crc2 size2
  crc32Combine (initValue ^^^ crc12) crc3 size3

def xxK1 : BitVec 32 := 2654435761
def xxK2 : BitVec 32 := 2246822519
def xxK3 : BitVec 32 := 3266489917
def xxK4 : BitVec 32 := 668265263
def xxK5 : BitVec 32 := 374761393

def xxRot32 (x : BitVec 32) (r : Nat) : BitVec 32 := (x <<< r) ||| (x >>> (32 - r))

def word32 (bytes : List UInt8) : BitVec 32 :=
  bytes.foldr (fun b acc => acc <<< 8 ||| b.toBitVec.setWidth 32) 0

/-- The load of `*p`, with the bytes from `p` to the end of the string: none where it leaves the string. -/
def load32 (p : List UInt8) : Option (BitVec 32) := if 4 ≤ p.length then some (word32 (p.take 4)) else none

def xxLane (v word : BitVec 32) : BitVec 32 := xxRot32 (v + word * xxK2) 13 * xxK1

/-- The loop over stripes of 16 bytes; the four lanes are `v1 .. v4`. -/
def xxStripes : Nat → List UInt8 → BitVec 32 × BitVec 32 × BitVec 32 × BitVec 32 →
    Option (List UInt8 × BitVec 32 × BitVec 32 × BitVec 32 × BitVec 32)
  | 0, p, v => some (p, v)
  | n + 1, p, (v1, v2, v3, v4) => do
    let word1 ← load32 p
    let word2 ← load32 (p.drop 4)
    let word3 ← load32 (p.drop 8)
    let word4 ← load32 (p.drop 12)
    xxStripes n (p.drop 16) (xxLane v1 word1, xxLane v2 word2, xxLane v3 word3, xxLane v4 word4)

def xxWords : Nat → List UInt8 → BitVec 32 → Option (List UInt8 × BitVec 32)
  | 0, p, h => some (p, h)
  | n + 1, p, h => do
    let word ← load32 p
    xxWords n (p.drop 4) (xxRot32 (h + word * xxK3) 17 * xxK4)

/-- A pass of the last loop, whose bytes are of type `char`, which is signed. -/
def xxByte (h : BitVec 32) (b : UInt8) : BitVec 32 := xxRot32 (h + b.toBitVec.signExtend 32 * xxK5) 11 * xxK1

def xxHead (ptr : List UInt8) : Option (List UInt8 × BitVec 32) :=
  if 16 ≤ ptr.length then do
    let (p, v1, v2, v3, v4) ← xxStripes (ptr.length / 16) ptr (xxK1 + xxK2, xxK2, 0, 0 - xxK1)
    some (p, xxRot32 v1 1 + xxRot32 v2 7 + xxRot32 v3 12 + xxRot32 v4 18)
  else some (ptr, xxK5)

def xxHash (ptr : List UInt8) : Option (BitVec 32) := do
  let (p, h) ← xxHead ptr
  let h := h + BitVec.ofNat 32 ptr.length
  let (q, h) ← xxWords (p.length / 4) p h
  let h := q.foldl xxByte h
  let h := (h ^^^ (h >>> 15)) * xxK2
  let h := (h ^^^ (h >>> 13)) * xxK3
  return h ^^^ (h >>> 16)

end Vesal
