import Vesal.Checksum
import Vesal.Library.CarrylessProduct

/-!
# Combination of CRCs with carry-less multiplication

The paths of `checksum_impl.cc` for processors with `pclmul` and `sse4.2`. An `__m128i` is a
bit vector, its two halves are 64 bits each.
-/

namespace Vesal

open Library

/-- `_mm_set_epi64x`: the high half comes first. -/
def mmSetEpi64x (e1 e0 : BitVec 64) : BitVec 128 := e1.setWidth 128 <<< 64 ||| e0.setWidth 128

def mmSetLowEpi32 (a : BitVec 32) : BitVec 128 := a.setWidth 128

variable (v : BitVec 128)

def mmExtractEpi64 (index : Nat) : BitVec 64 := (v >>> (64 * index)).setWidth 64

/-- `_mm_clmulepi64_si128`: bit 0 of the immediate chooses the half of the first operand and
bit 4 that of the second. -/
def mmClmulepi64 (a b : BitVec 128) (imm : BitVec 8) : BitVec 128 :=
  clmul 128 (mmExtractEpi64 a (imm.getLsbD 0).toNat) (mmExtractEpi64 b (imm.getLsbD 4).toNat)

/-- `_mm_slli_si128` shifts by bytes. -/
def mmSlliSi128 (bytes : Nat) : BitVec 128 := v <<< (8 * bytes)

/-- `_mm_crc32_u32`: the register takes the four bytes of the operand, lowest first. -/
def mmCrc32U32 (crc v : BitVec 32) : BitVec 32 :=
  crcUpdate crc ((List.range 4).map fun i => ⟨(v >>> (8 * i)).setWidth 8⟩)

def mmCrc32U64 (crc v : BitVec 64) : BitVec 64 := crc32q crc v

def crc32mulPclmul (a b : BitVec 32) : BitVec 32 :=
  let va := mmSetLowEpi32 a
  let vb := mmSetLowEpi32 b
  let v := mmClmulepi64 va vb 0
  let m := mmExtractEpi64 v 0
  let lo := (m >>> 31).setWidth 32
  let hi := ((m &&& ((1#32 <<< 31) - 1).setWidth 64) <<< 1).setWidth 32
  mmCrc32U32 hi 0 ^^^ lo

/-- A pass of the loop of `crc32ff_pclmul` at a group that is not zero; `d` counts the factors
multiplied without a reduction. -/
def crc32ffStep (c0 : BitVec 64) (v : BitVec 128) (d : Nat) : BitVec 128 × Nat :=
  if d < 2 then
    let k := mmSetEpi64x 0 (c0 <<< 1)
    (mmClmulepi64 v k 0, d + 1)
  else
    let c1 := mmCrc32U64 c0 0
    let k := mmSetEpi64x (c1 <<< 1) (c0 <<< 1)
    let v := mmSlliSi128 v 4
    let p := mmClmulepi64 v k 0x10  -- u0 * c * x65
    let v := mmClmulepi64 v k 0x01  -- u1 * c * x1
    (v ^^^ p, d)

def crc32ffLoop : Nat → Nat → Nat → BitVec 128 → Nat → Except CombineFault (BitVec 128 × Nat)
  | 0, _, _, _, _ => .error .endlessLoop
  | fuel + 1, len, i, v, d =>
    if len = 0 then .ok (v, d)
    else if len &&& 63 = 0 then crc32ffLoop fuel (len >>> 6) (i + 1) v d
    else
      match tableEntry (i * 64 + (len &&& 63)) with
      | .error fault => .error fault
      | .ok entry =>
        let (v, d) := crc32ffStep (entry.setWidth 64) v d
        crc32ffLoop fuel (len >>> 6) (i + 1) v d

def crc32ffReduce (d : Nat) : BitVec 32 :=
  if d < 2 then
    let u0 := mmExtractEpi64 v 0
    let lo := (u0 >>> 32).setWidth 32
    let hi := (u0 &&& (0xFFFFFFFF : BitVec 64)).setWidth 32
    mmCrc32U32 hi 0 ^^^ lo
  else
    let u0 := mmExtractEpi64 v 0
    let u1 := mmExtractEpi64 v 1
    (mmCrc32U64 0 u0 ^^^ u1).setWidth 32

def crc32ffPclmul (crc : BitVec 32) (len : Nat) : Except CombineFault (BitVec 32) :=
  let len := foldLength (foldLength len)
  if len = 0 then .ok crc
  else
    match crc32ffLoop 12 len 0 (mmSetLowEpi32 crc) 0 with
    | .error fault => .error fault
    | .ok (v, d) => .ok (crc32ffReduce v d)

end Vesal
