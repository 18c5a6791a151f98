import Vesal.ChecksumPclmul
import Vesal.Proofs.ChecksumCombine

/-! # The fast combination of CRCs -/

namespace Vesal.Proofs

open Library List Function BitVec

variable (n : Nat)

lemma xorHom_xPow : XorHom (xPow n) := ⟨xPow_xor n⟩

variable {i : Nat}

lemma twoPow_eq_monomial (hi : i < 32) : twoPow 32 i = monomial (31 - i) := by
  have h := iterate_polyOne kCrc32cPolyReflect (31 - i) (by omega)
  rw [show 32 - 1 - (31 - i) = i by omega] at h
  exact h.symm

lemma xPow_twoPow (hi : i < 32) : xPow n (twoPow 32 i) = monomial (n + (31 - i)) := by
  rw [twoPow_eq_monomial hi, xPow_monomial]

lemma xPow_eight (crc v : BitVec 32) : xPow 8 (crc ^^^ v) = crc32b crc ⟨v.setWidth 8⟩ ^^^ (v >>> 8) := by
  have hshift : ∀ v : BitVec 32, xPow 8 v = xPow 8 ((v.setWidth 8).setWidth 32) ^^^ (v >>> 8) := by
    apply XorHom.ext (xorHom_xPow 8)
    · exact XorHom.xor (((xorHom_xPow 8).comp (xorHom_setWidth 8 32)).comp (xorHom_setWidth 32 8))
        (xorHom_ushiftRight 32 8)
    · intro i hi
      rw [ushiftRight_twoPow hi, setWidth_twoPow hi]
      by_cases hlow : i < 8
      · rw [setWidth_twoPow hlow, if_neg (by omega), xor_zero]
      · have hhigh : twoPow 8 i = 0#8 := twoPow_of_le (by omega)
        have hzero : xPow 8 ((0#8).setWidth 32) = 0#32 := (xorHom_xPow 8).map_zero
        rw [hhigh, hzero, if_pos (by omega), xPow_twoPow 8 hi, twoPow_eq_monomial (by omega), zero_xor]
        congr 1
        omega
  rw [xPow_xor, hshift v, ← BitVec.xor_assoc, ← xPow_xor]
  rfl

def wordBytes (v : BitVec 32) (n : Nat) : List UInt8 := (List.range n).map fun i => ⟨(v >>> (8 * i)).setWidth 8⟩

lemma wordBytes_succ (v : BitVec 32) (n : Nat) :
    wordBytes v (n + 1) = ⟨v.setWidth 8⟩ :: wordBytes (v >>> 8) n := by
  unfold wordBytes
  rw [range_succ_eq_map, map_cons, map_map]
  congr 1
  apply map_congr_left
  intro i _
  have hshift : v >>> (8 * (i + 1)) = v >>> 8 >>> (8 * i) := by
    rw [← shiftRight_add]
    congr 1
    ring
  simp only [comp_apply, Nat.succ_eq_add_one, hshift]

lemma xPow_wordBytes (crc v : BitVec 32) :
    xPow (8 * n) (crc ^^^ v) = crcUpdate crc (wordBytes v n) ^^^ (v >>> (8 * n)) := by
  induction n generalizing crc v with
  | zero => rfl
  | succ n ih =>
    have hcons : crcUpdate crc (wordBytes v (n + 1)) =
        crcUpdate (crc32b crc ⟨v.setWidth 8⟩) (wordBytes (v >>> 8) n) := by
      rw [wordBytes_succ]
      rfl
    rw [hcons, Nat.mul_add, Nat.mul_one, xPow_add, xPow_eight, ih, ← shiftRight_add, Nat.add_comm 8]

lemma crcUpdate_word (crc v : BitVec 32) : crcUpdate crc (wordBytes v 4) = xPow 32 (crc ^^^ v) := by
  have h := xPow_wordBytes 4 crc v
  have hout : v >>> (8 * 4) = 0#32 := ushiftRight_eq_zero (by omega)
  rw [hout, xor_zero] at h
  exact h.symm

variable (c crc : BitVec 32)

lemma mmCrc32U32_zero : mmCrc32U32 crc 0 = xPow 32 crc := by
  have h := crcUpdate_word crc 0#32
  rw [xor_zero] at h
  exact h

variable (u : BitVec 64)

lemma quadBytes_eq :
    (range 8).map (quadByte u) = wordBytes (u.setWidth 32) 4 ++ wordBytes ((u >>> 32).setWidth 32) 4 := by
  have hlow : ∀ i < 4, quadByte u i = ⟨(u.setWidth 32 >>> (8 * i)).setWidth 8⟩ := by
    intro i hi
    unfold quadByte
    congr 1
    apply eq_of_getLsbD_eq
    intro j hj
    simp [hj, show 8 * i + j < 32 by omega]
  have hhigh : ∀ i < 4, quadByte u (i + 4) = ⟨((u >>> 32).setWidth 32 >>> (8 * i)).setWidth 8⟩ := by
    intro i hi
    unfold quadByte
    congr 1
    apply eq_of_getLsbD_eq
    intro j hj
    simp [hj, show 8 * i + j < 32 by omega, show 8 * (i + 4) + j = 32 + (8 * i + j) by ring]
  have hrange : range 8 = range 4 ++ (range 4).map (4 + ·) := rfl
  rw [hrange, map_append, map_map]
  congr 1
  · apply map_congr_left
    intro i hi
    exact hlow i (mem_range.mp hi)
  · apply map_congr_left
    intro i hi
    rw [comp_apply, Nat.add_comm]
    exact hhigh i (mem_range.mp hi)

lemma mmCrc32U64_eq :
    (mmCrc32U64 (crc.setWidth 64) u).setWidth 32 =
      xPow 64 (crc ^^^ u.setWidth 32) ^^^ xPow 32 ((u >>> 32).setWidth 32) := by
  have hcrc : (crc.setWidth 64).setWidth 32 = crc := by simp
  unfold mmCrc32U64 crc32q
  rw [hcrc, quadBytes_eq, crcUpdate_append, crcUpdate_word, crcUpdate_word, xPow_xor, ← xPow_add]
  simp

def value64 : BitVec 32 := xPow 32 (u.setWidth 32) ^^^ (u >>> 32).setWidth 32

def value96 (v : BitVec 128) : BitVec 32 := xPow 32 (value64 (mmExtractEpi64 v 0)) ^^^ (mmExtractEpi64 v 1).setWidth 32

lemma xorHom_value64 : XorHom value64 := by
  apply XorHom.xor
  · exact (xorHom_xPow 32).comp (xorHom_setWidth 64 32)
  · exact (xorHom_setWidth 64 32).comp (xorHom_ushiftRight 64 32)

lemma xorHom_mmExtractEpi64 (index : Nat) : XorHom fun v => mmExtractEpi64 v index :=
  (xorHom_setWidth 128 64).comp (xorHom_ushiftRight 128 (64 * index))

lemma xorHom_value96 : XorHom value96 := by
  apply XorHom.xor
  · exact ((xorHom_xPow 32).comp xorHom_value64).comp (xorHom_mmExtractEpi64 0)
  · exact (xorHom_setWidth 64 32).comp (xorHom_mmExtractEpi64 1)

lemma value64_twoPow (hi : i < 64) : value64 (twoPow 64 i) = monomial (63 - i) := by
  unfold value64
  rw [ushiftRight_twoPow hi, setWidth_twoPow hi]
  by_cases hlow : i < 32
  · rw [if_neg (by omega), xPow_twoPow 32 hlow]
    have hzero : (0#64).setWidth 32 = 0#32 := rfl
    rw [hzero, xor_zero]
    congr 1
    omega
  · rw [if_pos (by omega), twoPow_of_le (by omega : 32 ≤ i), setWidth_twoPow (by omega), (xorHom_xPow 32).map_zero,
      zero_xor, twoPow_eq_monomial (by omega)]
    congr 1
    omega

lemma mmExtractEpi64_twoPow (hi : i < 128) :
    mmExtractEpi64 (twoPow 128 i) 0 = twoPow 64 i ∧
      mmExtractEpi64 (twoPow 128 i) 1 = if 64 ≤ i then twoPow 64 (i - 64) else 0#64 := by
  unfold mmExtractEpi64
  constructor
  · rw [Nat.mul_zero, ushiftRight_zero, setWidth_twoPow hi]
  · rw [Nat.mul_one, ushiftRight_twoPow hi]
    split
    · exact setWidth_twoPow (by omega) 64
    · rfl

lemma value96_twoPow (hi : i < 96) : value96 (twoPow 128 i) = monomial (95 - i) := by
  obtain ⟨hlow, hhigh⟩ := mmExtractEpi64_twoPow (show i < 128 by omega)
  unfold value96
  rw [hlow, hhigh]
  by_cases h64 : i < 64
  · have hzero : (0#64).setWidth 32 = 0#32 := rfl
    rw [if_neg (by omega), value64_twoPow h64, xPow_monomial, hzero, xor_zero]
    congr 1
    omega
  · rw [if_pos (by omega), twoPow_of_le (by omega : 64 ≤ i), xorHom_value64.map_zero, (xorHom_xPow 32).map_zero,
      zero_xor, setWidth_twoPow (by omega), twoPow_eq_monomial (by omega)]
    congr 1
    omega

lemma mmExtractEpi64_mmSetLowEpi32 : mmExtractEpi64 (mmSetLowEpi32 c) 0 = c.setWidth 64 := by
  unfold mmExtractEpi64 mmSetLowEpi32
  simp

lemma mmExtractEpi64_mmSetEpi64x (e1 e0 : BitVec 64) :
    mmExtractEpi64 (mmSetEpi64x e1 e0) 0 = e0 ∧ mmExtractEpi64 (mmSetEpi64x e1 e0) 1 = e1 := by
  unfold mmExtractEpi64 mmSetEpi64x
  constructor
  · apply eq_of_getLsbD_eq
    intro i hi
    simp [hi]
  · apply eq_of_getLsbD_eq
    intro i hi
    simp [hi, show 64 + i < 128 by omega]

lemma mmClmulepi64_eq (a b : BitVec 128) :
    mmClmulepi64 a b 0 = clmul 128 (mmExtractEpi64 a 0) (mmExtractEpi64 b 0) ∧
      mmClmulepi64 a b 0x10 = clmul 128 (mmExtractEpi64 a 0) (mmExtractEpi64 b 1) ∧
      mmClmulepi64 a b 0x01 = clmul 128 (mmExtractEpi64 a 1) (mmExtractEpi64 b 0) :=
  ⟨rfl, rfl, rfl⟩

lemma xorHom_polyMul_left (b : BitVec 32) : XorHom fun a => polyMul kCrc32cPolyReflect a b :=
  ⟨fun a a' => polyMulUpTo_xor_left kCrc32cPolyReflect a a' b 32⟩

lemma xorHom_polyMul_right (a : BitVec 32) : XorHom (polyMul kCrc32cPolyReflect a) :=
  ⟨fun b b' => polyMulUpTo_xor_right kCrc32cPolyReflect a b b' 32⟩

def factor : BitVec 64 := c.setWidth 64 <<< 1

lemma xorHom_factor : XorHom factor := (xorHom_shiftLeft 64 1).comp (xorHom_setWidth 32 64)

lemma factor_twoPow {j : Nat} (hj : j < 32) : factor (twoPow 32 j) = twoPow 64 (j + 1) := by
  unfold factor
  rw [setWidth_twoPow hj, shiftLeft_twoPow]

lemma value96_clmul :
    value96 (clmul 128 u (factor c)) = polyMul kCrc32cPolyReflect c (value64 u) := by
  apply XorHom.ext₂ (f := fun c u => value96 (clmul 128 u (factor c)))
    (g := fun c u => polyMul kCrc32cPolyReflect c (value64 u))
  · intro u
    exact (xorHom_value96.comp (xorHom_clmul_right 128 u)).comp xorHom_factor
  · intro c
    exact xorHom_value96.comp (xorHom_clmul_left 128 (factor c))
  · intro u
    exact xorHom_polyMul_left (value64 u)
  · intro c
    exact (xorHom_polyMul_right c).comp xorHom_value64
  · intro j hj i hi
    rw [factor_twoPow hj, clmul_twoPow 128 hi (by omega), value96_twoPow (by omega), value64_twoPow hi,
      twoPow_eq_monomial hj, polyMul_monomial, xPow_monomial]
    congr 1
    omega

lemma value64_clmul (c a : BitVec 32) :
    value64 (mmExtractEpi64 (clmul 128 (a.setWidth 64) (factor c)) 0) = polyMul kCrc32cPolyReflect c a := by
  apply XorHom.ext₂ (f := fun c (a : BitVec 32) => value64 (mmExtractEpi64 (clmul 128 (a.setWidth 64) (factor c)) 0))
    (g := polyMul kCrc32cPolyReflect)
  · intro a
    exact ((xorHom_value64.comp (xorHom_mmExtractEpi64 0)).comp (xorHom_clmul_right 128 _)).comp xorHom_factor
  · intro c
    exact ((xorHom_value64.comp (xorHom_mmExtractEpi64 0)).comp (xorHom_clmul_left 128 (factor c))).comp
      (xorHom_setWidth 32 64)
  · exact xorHom_polyMul_left
  · exact xorHom_polyMul_right
  · intro j hj i hi
    rw [factor_twoPow hj, setWidth_twoPow hi, clmul_twoPow 128 (by omega) (by omega),
      (mmExtractEpi64_twoPow (by omega)).1, value64_twoPow (by omega), twoPow_eq_monomial hj, twoPow_eq_monomial hi,
      polyMul_monomial, xPow_monomial]
    congr 1
    omega

def value63 (m : BitVec 64) : BitVec 32 :=
  xPow 32 (((m &&& ((1#32 <<< 31) - 1).setWidth 64) <<< 1).setWidth 32) ^^^ (m >>> 31).setWidth 32

lemma xorHom_value63 : XorHom value63 := by
  apply XorHom.xor
  · exact (((xorHom_xPow 32).comp (xorHom_setWidth 64 32)).comp (xorHom_shiftLeft 64 1)).comp (xorHom_and _)
  · exact (xorHom_setWidth 64 32).comp (xorHom_ushiftRight 64 31)

lemma twoPow_and_mask (hi : i < 64) :
    twoPow 64 i &&& ((1#32 <<< 31) - 1).setWidth 64 = if i < 31 then twoPow 64 i else 0#64 := by
  have hmask : ((1#32 <<< 31) - 1).setWidth 64 = BitVec.ofNat 64 (2 ^ 31 - 1) := by decide
  rw [twoPow_and, hmask, getLsbD_ofNat, Nat.testBit_two_pow_sub_one, decide_eq_true hi, Bool.true_and]
  simp only [decide_eq_true_eq]

lemma value63_twoPow (hi : i < 63) : value63 (twoPow 64 i) = monomial (62 - i) := by
  unfold value63
  rw [twoPow_and_mask (by omega), ushiftRight_twoPow (by omega)]
  by_cases hlow : i < 31
  · have hzero : (0#64).setWidth 32 = 0#32 := rfl
    rw [if_pos hlow, if_neg (by omega), shiftLeft_twoPow, setWidth_twoPow (by omega), xPow_twoPow 32 (by omega), hzero,
      xor_zero]
    congr 1
    omega
  · have hzero : (0#64 <<< 1).setWidth 32 = 0#32 := by decide
    rw [if_neg hlow, if_pos (by omega), setWidth_twoPow (by omega), hzero, (xorHom_xPow 32).map_zero, zero_xor,
      twoPow_eq_monomial (by omega)]
    congr 1
    omega

lemma crc32mulPclmul_eq (a b : BitVec 32) : crc32mulPclmul a b = polyMul kCrc32cPolyReflect a b := by
  have hvalue : crc32mulPclmul a b = value63 (mmExtractEpi64 (clmul 128 (a.setWidth 64) (b.setWidth 64)) 0) := by
    unfold crc32mulPclmul
    dsimp only
    rw [(mmClmulepi64_eq _ _).1, mmExtractEpi64_mmSetLowEpi32, mmExtractEpi64_mmSetLowEpi32, mmCrc32U32_zero]
    rfl
  rw [hvalue]
  apply XorHom.ext₂
    (f := fun a b : BitVec 32 => value63 (mmExtractEpi64 (clmul 128 (a.setWidth 64) (b.setWidth 64)) 0))
    (g := polyMul kCrc32cPolyReflect)
  · intro b
    exact ((xorHom_value63.comp (xorHom_mmExtractEpi64 0)).comp (xorHom_clmul_left 128 _)).comp (xorHom_setWidth 32 64)
  · intro a
    exact ((xorHom_value63.comp (xorHom_mmExtractEpi64 0)).comp (xorHom_clmul_right 128 _)).comp (xorHom_setWidth 32 64)
  · exact xorHom_polyMul_left
  · exact xorHom_polyMul_right
  · intro i hi j hj
    rw [setWidth_twoPow hi, setWidth_twoPow hj, clmul_twoPow 128 (by omega) (by omega),
      (mmExtractEpi64_twoPow (by omega)).1, value63_twoPow (by omega), twoPow_eq_monomial hi, twoPow_eq_monomial hj,
      polyMul_monomial, xPow_monomial]
    congr 1
    omega

lemma value96_slli (v : BitVec 128) :
    value64 (mmExtractEpi64 (mmSlliSi128 v 4) 1) ^^^ xPow 64 (value64 (mmExtractEpi64 (mmSlliSi128 v 4) 0)) =
      value96 v := by
  have hshift : XorHom fun v : BitVec 128 => mmSlliSi128 v 4 := xorHom_shiftLeft 128 (8 * 4)
  apply XorHom.ext (XorHom.xor ((xorHom_value64.comp (xorHom_mmExtractEpi64 1)).comp hshift)
    ((((xorHom_xPow 64).comp xorHom_value64).comp (xorHom_mmExtractEpi64 0)).comp hshift)) xorHom_value96
  intro i hi
  have hslli : mmSlliSi128 (twoPow 128 i) 4 = twoPow 128 (i + 32) := shiftLeft_twoPow 128 i 32
  rw [hslli]
  by_cases h96 : i < 96
  · obtain ⟨hlow, hhigh⟩ := mmExtractEpi64_twoPow (show i + 32 < 128 by omega)
    rw [hlow, hhigh, value96_twoPow h96]
    by_cases h32 : i < 32
    · rw [if_neg (by omega), xorHom_value64.map_zero, zero_xor, value64_twoPow (by omega), xPow_monomial]
      congr 1
      omega
    · rw [if_pos (by omega), twoPow_of_le (by omega : 64 ≤ i + 32), xorHom_value64.map_zero, (xorHom_xPow 64).map_zero,
        xor_zero, value64_twoPow (by omega)]
      congr 1
      omega
  · obtain ⟨hlow, hhigh⟩ := mmExtractEpi64_twoPow hi
    unfold value96
    rw [twoPow_of_le (by omega : 128 ≤ i + 32), hlow, hhigh, if_pos (by omega), twoPow_of_le (by omega : 64 ≤ i),
      setWidth_twoPow (by omega), twoPow_of_le (by omega : 32 ≤ i - 64), (xorHom_mmExtractEpi64 1).map_zero,
      (xorHom_mmExtractEpi64 0).map_zero, xorHom_value64.map_zero, (xorHom_xPow 64).map_zero, (xorHom_xPow 32).map_zero]

def loopValue (v : BitVec 128) (d : Nat) : BitVec 32 :=
  if d = 0 then v.setWidth 32 else if d = 1 then value64 (mmExtractEpi64 v 0) else value96 v

def Loaded (v : BitVec 128) (d : Nat) : Prop := d = 0 → v = mmSetLowEpi32 (v.setWidth 32)

variable {d : Nat}

variable {v : BitVec 128}

lemma crc32ffStep_value (h : Loaded v d) (n : Nat) :
    loopValue (crc32ffStep ((monomial n).setWidth 64) v d).1 (crc32ffStep ((monomial n).setWidth 64) v d).2 =
        xPow n (loopValue v d) ∧
      0 < (crc32ffStep ((monomial n).setWidth 64) v d).2 := by
  unfold crc32ffStep
  by_cases hd : d < 2
  · rw [if_pos hd]
    have hclmul : mmClmulepi64 v (mmSetEpi64x 0 ((monomial n).setWidth 64 <<< 1)) 0 =
        clmul 128 (mmExtractEpi64 v 0) (factor (monomial n)) := by
      rw [(mmClmulepi64_eq _ _).1, (mmExtractEpi64_mmSetEpi64x _ _).1]
      rfl
    refine ⟨?_, Nat.succ_pos d⟩
    dsimp only
    rw [hclmul, ← polyMul_monomial]
    by_cases hzero : d = 0
    · subst hzero
      have hv : mmExtractEpi64 v 0 = (v.setWidth 32).setWidth 64 := by
        rw [← mmExtractEpi64_mmSetLowEpi32, ← h rfl]
      rw [hv]
      exact value64_clmul (monomial n) (v.setWidth 32)
    · have hone : d = 1 := by omega
      subst hone
      exact value96_clmul (monomial n) (mmExtractEpi64 v 0)
  · rw [if_neg hd]
    have hloop : ∀ w, loopValue w d = value96 w := by
      intro w
      unfold loopValue
      rw [if_neg (by omega), if_neg (by omega)]
    have hc1 : mmCrc32U64 ((monomial n).setWidth 64) 0 = (monomial (64 + n)).setWidth 64 := by
      have hlow := mmCrc32U64_eq (monomial n) 0#64
      have hzero : (0#64 >>> 32).setWidth 32 = 0#32 := by decide
      rw [setWidth_zero, xor_zero, hzero, (xorHom_xPow 32).map_zero, xor_zero, xPow_monomial] at hlow
      rw [← hlow]
      unfold mmCrc32U64 crc32q
      simp
    refine ⟨?_, by change 0 < d; omega⟩
    dsimp only
    rw [hloop, hloop, hc1]
    rw [(mmClmulepi64_eq _ _).2.1, (mmClmulepi64_eq _ _).2.2, (mmExtractEpi64_mmSetEpi64x _ _).1,
      (mmExtractEpi64_mmSetEpi64x _ _).2]
    change value96 (clmul 128 _ (factor (monomial n)) ^^^ clmul 128 _ (factor (monomial (64 + n)))) = _
    rw [xorHom_value96.map_xor, value96_clmul, value96_clmul, polyMul_monomial, polyMul_monomial,
      Nat.add_comm 64 n, xPow_add, ← xPow_xor, value96_slli]

lemma crc32ffLoop_value (n len i : Nat) (h : Loaded v d) (hlen : len < 64 ^ n) (hbound : len * 64 ^ i < 2 ^ 32) :
    ∃ v' d', crc32ffLoop (n + 1) len i v d = .ok (v', d') ∧
      loopValue v' d' = xPow (8 * (len * 64 ^ i)) (loopValue v d) ∧ (len ≠ 0 ∨ 0 < d → 0 < d') := by
  induction n generalizing len i v d with
  | zero =>
    have hzero : len = 0 := by
      rw [Nat.pow_zero] at hlen
      omega
    subst hzero
    refine ⟨v, d, rfl, ?_, by omega⟩
    simp [xPow]
  | succ n ih =>
    by_cases hzero : len = 0
    · subst hzero
      refine ⟨v, d, rfl, ?_, by omega⟩
      simp [xPow]
    · rw [Nat.pow_succ] at hlen
      have hsplit : len * 64 ^ i = len / 64 * 64 ^ (i + 1) + len % 64 * 64 ^ i := by
        conv_lhs => rw [← Nat.div_add_mod len 64]
        ring
      rw [crc32ffLoop, if_neg hzero, and_63, shiftRight_6]
      by_cases hgroup : len % 64 = 0
      · rw [hgroup, Nat.zero_mul, Nat.add_zero] at hsplit
        obtain ⟨v', d', hloop, hvalue, hpos⟩ := ih (len / 64) (i + 1) h (by omega) (by omega)
        rw [if_pos hgroup, hloop, hsplit]
        exact ⟨v', d', rfl, hvalue, fun _ => hpos (Or.inl (by omega))⟩
      · rw [if_neg hgroup, tableEntry_eq i _ (inTable_of_lt hbound hgroup)]
        obtain ⟨hstep, hd⟩ := crc32ffStep_value h (8 * (len % 64 * 64 ^ i))
        dsimp only
        generalize crc32ffStep ((monomial (8 * (len % 64 * 64 ^ i))).setWidth 64) v d = r at hstep hd
        obtain ⟨v', d', hloop, hvalue, hpos⟩ := ih (len / 64) (i + 1) (v := r.1) (d := r.2)
          (fun hzero => absurd hzero (by omega)) (by omega) (by omega)
        refine ⟨v', d', hloop, ?_, fun _ => hpos (Or.inr hd)⟩
        rw [hvalue, hstep, hsplit, Nat.mul_add, xPow_add]

lemma crc32ffReduce_eq (v : BitVec 128) (hd : 0 < d) : crc32ffReduce v d = loopValue v d := by
  have hzero : ¬d = 0 := by omega
  unfold crc32ffReduce loopValue
  rw [if_neg hzero]
  by_cases hone : d = 1
  · subst hone
    have hmask : ∀ u : BitVec 64, (u &&& (0xFFFFFFFF : BitVec 64)).setWidth 32 = u.setWidth 32 := by
      intro u
      have hones : (0xFFFFFFFF : BitVec 64).setWidth 32 = allOnes 32 := by decide
      rw [setWidth_and, hones, and_allOnes]
    rw [if_pos Nat.one_lt_two, if_pos rfl]
    dsimp only
    rw [mmCrc32U32_zero, hmask]
    rfl
  · have hcrc := mmCrc32U64_eq 0#32 (mmExtractEpi64 v 0)
    have hlarge : ¬d < 2 := by omega
    have hstart : (0#32).setWidth 64 = (0 : BitVec 64) := rfl
    rw [hstart, zero_xor] at hcrc
    rw [if_neg hlarge, if_neg hone]
    dsimp only
    rw [setWidth_xor]
    rw [hcrc]
    unfold value96 value64
    rw [xPow_xor, ← xPow_add]

lemma crc32ffPclmul_eq (len : Nat) (hlen : len < 2 ^ 64) :
    crc32ffPclmul crc len = .ok (xPow (8 * len) crc) := by
  have hbound := foldLength_twice_lt len hlen
  have hfold : xPow (8 * len) crc = xPow (8 * foldLength (foldLength len)) crc := by
    rw [xPow_foldLength, xPow_foldLength]
  unfold crc32ffPclmul
  rw [hfold]
  generalize foldLength (foldLength len) = m at hbound
  dsimp only
  by_cases hzero : m = 0
  · subst hzero
    rfl
  · have hlow : (mmSetLowEpi32 crc).setWidth 32 = crc := by
      unfold mmSetLowEpi32
      simp
    have hloaded : Loaded (mmSetLowEpi32 crc) 0 := fun _ => by rw [hlow]
    obtain ⟨v, d, hloop, hvalue, hpos⟩ := crc32ffLoop_value 11 m 0 hloaded (by omega) (by simpa using hbound)
    rw [if_neg hzero, hloop]
    dsimp only
    rw [crc32ffReduce_eq v (hpos (Or.inl hzero)), hvalue]
    unfold loopValue
    rw [if_pos rfl, hlow, Nat.pow_zero, Nat.mul_one]

/-- Both ways to multiply agree where the portable one returns, and both ways to combine
return the same for every length. -/
theorem pclmul_agrees (a b crc1 crc2 : BitVec 32) (ha : a ≠ 0) (size2 : BitVec 64) :
    crc32Mult a b = .ok (crc32mulPclmul a b) ∧
      ∃ crc, crc32ffPclmul crc1 size2.toNat = .ok crc ∧
        crc32Combine crc1 crc2 size2.toNat = .ok (crc ^^^ crc2) := by
  constructor
  · rw [crc32Mult_eq a b ha, crc32mulPclmul_eq]
  · refine ⟨xPow (8 * size2.toNat) crc1, crc32ffPclmul_eq crc1 _ size2.isLt, ?_⟩
    rw [crc32Combine, crc32CombineGen_eq _ size2.isLt]
    have hmult := crc32Mult_monomial (8 * size2.toNat) crc1
    simp only [crc32CombineOp, bind, Except.bind, hmult]
    rfl

theorem pclmul_agrees_short : crc32Mult 3 5 = .ok (crc32mulPclmul 3 5) :=
  (pclmul_agrees 3 5 0 0 (by decide) 1).1

end Vesal.Proofs
