import Vesal.Checksum

namespace Vesal.Proofs

open List

lemma quadByte_zero (quad : BitVec 64) (b : UInt8) :
    quadByte (quad <<< 8 ||| b.toBitVec.setWidth 64) 0 = b := by
  apply UInt8.toBitVec_inj.mp
  apply BitVec.eq_of_getLsbD_eq
  intro i hi
  simp [quadByte, hi]

lemma quadByte_succ (quad : BitVec 64) (b : UInt8) (i : Nat) (hi : i + 1 < 8) :
    quadByte (quad <<< 8 ||| b.toBitVec.setWidth 64) (i + 1) = quadByte quad i := by
  apply UInt8.toBitVec_inj.mp
  apply BitVec.eq_of_getLsbD_eq
  intro j hj
  have hlow : b.toBitVec.getLsbD (8 * (i + 1) + j) = false := BitVec.getLsbD_of_ge _ _ (by omega)
  have hindex : 8 * (i + 1) + j - 8 = 8 * i + j := by omega
  simp only [quadByte, BitVec.getLsbD_setWidth, BitVec.getLsbD_ushiftRight, BitVec.getLsbD_or,
    BitVec.getLsbD_shiftLeft, hlow, hindex]
  simp [hj, show 8 * (i + 1) + j < 64 by omega, show ¬8 * (i + 1) + j < 8 by omega]

lemma quadBytes_load64 (bytes : List UInt8) (hlen : bytes.length ≤ 8) :
    (range bytes.length).map (quadByte (load64 bytes)) = bytes := by
  induction bytes with
  | nil => rfl
  | cons b bytes ih =>
    rw [length_cons] at hlen
    have htail : (range bytes.length).map (fun i => quadByte (load64 (b :: bytes)) (i + 1)) =
        (range bytes.length).map (quadByte (load64 bytes)) := by
      apply map_congr_left
      intro i hi
      rw [mem_range] at hi
      exact quadByte_succ (load64 bytes) b i (by omega)
    rw [length_cons, range_succ_eq_map, map_cons, map_map]
    rw [ih (by omega)] at htail
    congr 1
    exact quadByte_zero (load64 bytes) b

lemma setWidth_64_32 (c : BitVec 32) : (c.setWidth 64).setWidth 32 = c := by
  apply BitVec.eq_of_getLsbD_eq
  intro i hi
  simp [hi]

lemma crc32q_load64 (crc : BitVec 32) (bytes : List UInt8) (hlen : bytes.length = 8) :
    crc32q (crc.setWidth 64) (load64 bytes) = (crcUpdate crc bytes).setWidth 64 := by
  have hbytes := quadBytes_load64 bytes (by omega)
  rw [hlen] at hbytes
  rw [crc32q, hbytes, setWidth_64_32]

lemma crcQuadLoop_eq (n : Nat) (crc : BitVec 32) (buf : List UInt8) (hlen : 8 * n ≤ buf.length) :
    crcQuadLoop n buf (crc.setWidth 64) =
      (buf.drop (8 * n), (crcUpdate crc (buf.take (8 * n))).setWidth 64) := by
  induction n generalizing crc buf with
  | zero => rfl
  | succ n ih =>
    have hquad : (buf.take 8).length = 8 := by
      rw [length_take]
      omega
    rw [crcQuadLoop, crc32q_load64 crc _ hquad, ih]
    · have hsplit : buf.take (8 * (n + 1)) = buf.take 8 ++ (buf.drop 8).take (8 * n) := by
        rw [← take_add, Nat.mul_add, Nat.mul_one, Nat.add_comm]
      rw [drop_drop, hsplit, crcUpdate, crcUpdate, crcUpdate, foldl_append, Nat.mul_add,
        Nat.mul_one, Nat.add_comm]
    · rw [length_drop]
      omega

/-- `ComputeCRC32` is the register update byte by byte. -/
theorem computeCRC32_eq (init : BitVec 32) (buf : List UInt8) :
    computeCRC32 init buf = crcUpdate init buf := by
  have hlen : 8 * (buf.length >>> 3) ≤ buf.length := by
    omega
  have hloop := crcQuadLoop_eq (buf.length >>> 3) init buf hlen
  simp only [computeCRC32, hloop, setWidth_64_32]
  rw [crcUpdate, crcUpdate, ← foldl_append, take_append_drop]

variable (mem : Nat → UInt8)

lemma quadLoopAt_eq (n p : Nat) (crc : BitVec 32) (reads : List Nat) :
    quadLoopAt mem n p (crc.setWidth 64) reads =
      (p + 8 * n, (crcUpdate crc ((range' p (8 * n)).map mem)).setWidth 64, reads ++ range' p (8 * n)) := by
  induction n generalizing p crc reads with
  | zero => simp [quadLoopAt, crcUpdate]
  | succ n ih =>
    have hrange : range' p (8 * (n + 1)) = range' p 8 ++ range' (p + 8) (8 * n) := by
      rw [Nat.mul_succ, Nat.add_comm, range'_append_1]
    rw [quadLoopAt, crc32q_load64 crc _ (by simp), ih, hrange, map_append, append_assoc]
    simp only [crcUpdate, foldl_append, Prod.mk.injEq, and_true]
    omega

lemma byteLoopAt_eq (n p : Nat) (crc : BitVec 32) (reads : List Nat) :
    byteLoopAt mem n p crc reads = (crcUpdate crc ((range' p n).map mem), reads ++ range' p n) := by
  induction n generalizing p crc reads with
  | zero => simp [byteLoopAt, crcUpdate]
  | succ n ih =>
    rw [byteLoopAt, ih, range'_succ, map_cons, append_assoc]
    rfl

lemma computeCRC32At_eq (init : BitVec 32) (buf size : Nat) :
    computeCRC32At mem init buf size = (crcUpdate init ((range' buf size).map mem), range' buf size) := by
  have hlen : 8 * (size >>> 3) ≤ size := by
    omega
  have hrange : range' buf size =
      range' buf (8 * (size >>> 3)) ++ range' (buf + 8 * (size >>> 3)) (size - 8 * (size >>> 3)) := by
    rw [range'_append_1, Nat.add_sub_cancel' hlen]
  rw [computeCRC32At, quadLoopAt_eq]
  dsimp only
  rw [byteLoopAt_eq, setWidth_64_32, nil_append, Nat.add_sub_add_left, hrange, map_append, crcUpdate,
    crcUpdate, crcUpdate, foldl_append]

/-- The bytes of a string are read once each, in their order, and the register is updated byte by
byte; so it is when the string comes in two parts. -/
theorem crc32_streams (mem : Nat → UInt8) (init : BitVec 32) (buf n m : Nat) :
    computeCRC32At mem init buf (n + m) = (crcUpdate init ((range' buf (n + m)).map mem), range' buf (n + m)) ∧
    computeCRC32At mem (computeCRC32At mem init buf n).1 (buf + n) m =
      ((computeCRC32At mem init buf (n + m)).1, range' (buf + n) m) ∧
    (computeCRC32At mem init buf (n + m)).1 = computeCRC32 init ((range' buf (n + m)).map mem) := by
  refine ⟨computeCRC32At_eq mem init buf (n + m), ?_, ?_⟩
  · have hsplit : range' buf (n + m) = range' buf n ++ range' (buf + n) m := range'_append_1.symm
    rw [computeCRC32At_eq, computeCRC32At_eq, computeCRC32At_eq, hsplit, map_append, crcUpdate, crcUpdate, crcUpdate,
      foldl_append]
  · rw [computeCRC32At_eq, computeCRC32_eq]

end Vesal.Proofs
