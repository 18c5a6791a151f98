import Mathlib.Data.BitVec
import Mathlib.Tactic.Ring
import Vesal.Checksum

/-! # xxHash32 -/

namespace Vesal.Proofs

open List BitVec

variable (acc lane : BitVec 32) (s : List UInt8)

/-- The little-endian word with the number `i`. -/
def xxh32Word (i : Nat) : BitVec 32 := word32 ((s.drop (4 * i)).take 4)

def xxh32Round : BitVec 32 := (acc + lane * 0x85EBCA77).rotateLeft 13 * 0x9E3779B1

def xxh32Step : BitVec 32 := (acc + lane * 0xC2B2AE3D).rotateLeft 17 * 0x27D4EB2F

def xxh32Byte (acc : BitVec 32) (byte : UInt8) : BitVec 32 :=
  (acc + byte.toBitVec.setWidth 32 * 0x165667B1).rotateLeft 11 * 0x9E3779B1

/-- The accumulator of every fourth word, from the word `j` on, after `n` stripes. -/
def xxh32Acc (n j : Nat) (acc : BitVec 32) : BitVec 32 :=
  (range n).foldl (fun acc k => xxh32Round acc (xxh32Word s (4 * k + j))) acc

def xxh32Avalanche (acc : BitVec 32) : BitVec 32 :=
  let acc := (acc ^^^ (acc >>> 15)) * 0x85EBCA77
  let acc := (acc ^^^ (acc >>> 13)) * 0xC2B2AE3D
  acc ^^^ (acc >>> 16)

def xxh32Head : BitVec 32 :=
  if 16 ≤ s.length then
    let acc := xxh32Acc s (s.length / 16)
    (acc 0 (0x9E3779B1 + 0x85EBCA77)).rotateLeft 1 + (acc 1 0x85EBCA77).rotateLeft 7 + (acc 2 0).rotateLeft 12 +
      (acc 3 (0 - 0x9E3779B1)).rotateLeft 18
  else 0x165667B1

/-- xxHash32 with the seed 0, as it is specified: stripes of 16 bytes into four accumulators, the
words that are left, the bytes that are left, and the avalanche. -/
def xxh32 : BitVec 32 :=
  let n := s.length / 16
  let acc := (range' (4 * n) (s.length / 4 - 4 * n)).foldl (fun acc i => xxh32Step acc (xxh32Word s i))
    (xxh32Head s + BitVec.ofNat 32 s.length)
  xxh32Avalanche ((s.drop (4 * (s.length / 4))).foldl xxh32Byte acc)

lemma xxh32Word_drop (m i : Nat) : xxh32Word (s.drop (4 * m)) i = xxh32Word s (m + i) := by
  rw [xxh32Word, xxh32Word, drop_drop, Nat.mul_add]

lemma xxRot32_eq (x : BitVec 32) {r : Nat} (h : r < 32) : xxRot32 x r = x.rotateLeft r := by
  rw [rotateLeft_def, Nat.mod_eq_of_lt h, xxRot32]

lemma xxLane_eq : xxLane acc lane = xxh32Round acc lane := by
  rw [xxLane, xxh32Round, xxRot32_eq _ (by decide), xxK1, xxK2]

lemma xxh32Acc_succ (n j : Nat) (acc : BitVec 32) :
    xxh32Acc s (n + 1) j acc = xxh32Acc (s.drop 16) n j (xxLane acc (xxh32Word s j)) := by
  have hword : ∀ k, xxh32Word (s.drop 16) (4 * k + j) = xxh32Word s (4 * k.succ + j) := by
    intro k
    rw [xxh32Word_drop s 4, Nat.mul_succ, Nat.add_right_comm, Nat.add_comm 4]
  rw [xxh32Acc, range_succ_eq_map, foldl_cons, foldl_map, xxh32Acc, xxLane_eq, Nat.mul_zero, Nat.zero_add]
  simp only [hword]

lemma load32_drop {p : List UInt8} {i : Nat} (h : 4 * i + 4 ≤ p.length) :
    load32 (p.drop (4 * i)) = some (xxh32Word p i) := by
  unfold load32
  rw [if_pos]
  · rfl
  · rw [length_drop]
    omega

lemma xxStripes_eq {n : Nat} {p : List UInt8} (h : 16 * n ≤ p.length) (v1 v2 v3 v4 : BitVec 32) :
    xxStripes n p (v1, v2, v3, v4) =
      some (p.drop (16 * n), xxh32Acc p n 0 v1, xxh32Acc p n 1 v2, xxh32Acc p n 2 v3, xxh32Acc p n 3 v4) := by
  induction n generalizing p v1 v2 v3 v4 with
  | zero => rfl
  | succ n ih =>
    have hrest : 16 * n ≤ (p.drop 16).length := by
      rw [length_drop]
      omega
    have hload0 : load32 p = some (xxh32Word p 0) := load32_drop (i := 0) (by omega)
    have hload1 : load32 (p.drop 4) = some (xxh32Word p 1) := load32_drop (i := 1) (by omega)
    have hload2 : load32 (p.drop 8) = some (xxh32Word p 2) := load32_drop (i := 2) (by omega)
    have hload3 : load32 (p.drop 12) = some (xxh32Word p 3) := load32_drop (i := 3) (by omega)
    have hstep : xxStripes (n + 1) p (v1, v2, v3, v4) = xxStripes n (p.drop 16)
        (xxLane v1 (xxh32Word p 0), xxLane v2 (xxh32Word p 1), xxLane v3 (xxh32Word p 2), xxLane v4 (xxh32Word p 3)) := by
      simp only [xxStripes, hload0, hload1, hload2, hload3]
      rfl
    rw [hstep, ih hrest, drop_drop, xxh32Acc_succ, xxh32Acc_succ, xxh32Acc_succ, xxh32Acc_succ, Nat.mul_succ,
      Nat.add_comm 16]

lemma xxWords_eq {n : Nat} {p : List UInt8} (hlen : 4 * n ≤ p.length) (h : BitVec 32) :
    xxWords n p h = some (p.drop (4 * n), (range n).foldl (fun acc i => xxh32Step acc (xxh32Word p i)) h) := by
  induction n generalizing p h with
  | zero => rfl
  | succ n ih =>
    have hword : ∀ i, xxh32Word (p.drop 4) i = xxh32Word p i.succ := by
      intro i
      rw [xxh32Word_drop p 1, Nat.add_comm 1]
    have hrest : 4 * n ≤ (p.drop 4).length := by
      rw [length_drop]
      omega
    have hload : load32 p = some (xxh32Word p 0) := load32_drop (i := 0) (by omega)
    have hstep : xxWords (n + 1) p h = xxWords n (p.drop 4) (xxh32Step h (xxh32Word p 0)) := by
      simp only [xxWords, hload]
      rw [xxh32Step, ← xxRot32_eq _ (by decide)]
      rfl
    rw [hstep, ih hrest, drop_drop, range_succ_eq_map, foldl_cons, foldl_map, Nat.mul_succ, Nat.add_comm 4]
    simp only [hword]

/-- What is lost when a sum is rotated: the carries out of its low 21 bits and out of the word. -/
def rotCarries : List (BitVec 32) := [0, 1, -2048, -2047]

lemma rotateLeft_toNat (x : BitVec 32) : (x.rotateLeft 11).toNat = x.toNat % 2 ^ 21 * 2 ^ 11 + x.toNat / 2 ^ 21 := by
  have hhigh : x.toNat / 2 ^ 21 < 2 ^ 11 := by
    have := x.isLt
    omega
  have hor := Nat.shiftLeft_add_eq_or_of_lt hhigh (x.toNat % 2 ^ 21)
  rw [Nat.shiftLeft_eq] at hor
  rw [toNat_rotateLeft, hor]
  change x.toNat <<< 11 % 2 ^ 32 ||| x.toNat >>> 21 = _
  rw [Nat.shiftLeft_eq, Nat.shiftRight_eq_div_pow]
  congr 1
  omega

lemma rotateLeft_add (x y : BitVec 32) :
    ∃ c ∈ rotCarries, (x + y).rotateLeft 11 = x.rotateLeft 11 + c + y.rotateLeft 11 := by
  have hx := x.isLt
  have hy := y.isLt
  obtain ⟨s, hs⟩ : ∃ s, s = (x.toNat + y.toNat) % 2 ^ 32 := ⟨_, rfl⟩
  have hsum : ∀ c : BitVec 32, s % 2 ^ 21 * 2 ^ 11 + s / 2 ^ 21 =
      (x.toNat % 2 ^ 21 * 2 ^ 11 + x.toNat / 2 ^ 21 + c.toNat + (y.toNat % 2 ^ 21 * 2 ^ 11 + y.toNat / 2 ^ 21)) % 2 ^ 32 →
      (x + y).rotateLeft 11 = x.rotateLeft 11 + c + y.rotateLeft 11 := by
    intro c hc
    apply eq_of_toNat_eq
    rw [toNat_add, toNat_add, Nat.mod_add_mod, rotateLeft_toNat, rotateLeft_toNat, rotateLeft_toNat,
      toNat_add, ← hs]
    exact hc
  by_cases hlow : x.toNat % 2 ^ 21 + y.toNat % 2 ^ 21 < 2 ^ 21
  · have hmod : s % 2 ^ 21 = x.toNat % 2 ^ 21 + y.toNat % 2 ^ 21 := by omega
    by_cases hword : x.toNat + y.toNat < 2 ^ 32
    · have hdiv : s / 2 ^ 21 = x.toNat / 2 ^ 21 + y.toNat / 2 ^ 21 := by omega
      exact ⟨0, by simp [rotCarries], hsum 0 (by change _ = (_ + 0 + _) % _; omega)⟩
    · have hdiv : s / 2 ^ 21 + 2 ^ 11 = x.toNat / 2 ^ 21 + y.toNat / 2 ^ 21 := by omega
      exact ⟨-2048, by simp [rotCarries], hsum (-2048) (by change _ = (_ + 4294965248 + _) % _; omega)⟩
  · have hmod : s % 2 ^ 21 + 2 ^ 21 = x.toNat % 2 ^ 21 + y.toNat % 2 ^ 21 := by omega
    by_cases hword : x.toNat + y.toNat < 2 ^ 32
    · have hdiv : s / 2 ^ 21 = x.toNat / 2 ^ 21 + y.toNat / 2 ^ 21 + 1 := by omega
      exact ⟨1, by simp [rotCarries], hsum 1 (by change _ = (_ + 1 + _) % _; omega)⟩
    · have hdiv : s / 2 ^ 21 + 2 ^ 11 = x.toNat / 2 ^ 21 + y.toNat / 2 ^ 21 + 1 := by omega
      exact ⟨-2047, by simp [rotCarries], hsum (-2047) (by change _ = (_ + 4294965249 + _) % _; omega)⟩

/-- What a byte of the last loop can make of the differences `ds` between the accumulators of the code
and of the specification. -/
def byteDiffs (high : Bool) (ds : List (BitVec 32)) : List (BitVec 32) :=
  ds.flatMap fun d => rotCarries.map fun c =>
    ((d + if high then -256 * 0x165667B1 else 0).rotateLeft 11 + c) * 0x9E3779B1

lemma signExtend_eq (b : UInt8) :
    b.toBitVec.signExtend 32 = b.toBitVec.setWidth 32 + if b < 0x80 then 0 else -256 := by
  have hmsb : b.toBitVec.msb = true ↔ ¬ b < 0x80 := by
    rw [msb_eq_decide, decide_eq_true_iff]
    exact not_lt.symm
  have hb := b.toBitVec.isLt
  apply eq_of_toNat_eq
  rw [toNat_signExtend, toNat_add]
  by_cases h : b < 0x80
  · rw [if_neg (fun hm => hmsb.mp hm h), if_pos h]
    exact (Nat.mod_eq_of_lt (isLt _)).symm
  · rw [if_pos (hmsb.mpr h), if_neg h, toNat_setWidth]
    change _ = (_ + 4294967040) % _
    omega

lemma sub_mem_byteDiffs {x y : BitVec 32} {ds : List (BitVec 32)} (h : x - y ∈ ds) (b : UInt8) :
    xxByte x b - xxh32Byte y b ∈ byteDiffs (!decide (b < 0x80)) ds := by
  obtain ⟨c, hc, hrot⟩ := rotateLeft_add (x - y + if !decide (b < 0x80) then -256 * 0x165667B1 else 0)
    (y + b.toBitVec.setWidth 32 * 0x165667B1)
  have hsum : x + b.toBitVec.signExtend 32 * 0x165667B1 =
      x - y + (if !decide (b < 0x80) then -256 * 0x165667B1 else 0) + (y + b.toBitVec.setWidth 32 * 0x165667B1) := by
    rw [signExtend_eq]
    by_cases hb : b < 0x80
    · simp only [hb, if_true, decide_true, Bool.not_true, Bool.false_eq_true, if_false]
      ring
    · simp only [hb, if_false, decide_false, Bool.not_false, if_true]
      ring
  refine mem_flatMap.mpr ⟨x - y, h, mem_map.mpr ⟨c, hc, ?_⟩⟩
  rw [xxByte, xxK5, xxK1, xxRot32_eq _ (by decide), hsum, hrot, xxh32Byte]
  ring

-- a difference that a high byte has made is there after up to two more bytes
lemma zero_notMem_byteDiffs (high₂ high₃ : Bool) :
    0 ∉ byteDiffs true [0] ∧ 0 ∉ byteDiffs high₂ (byteDiffs true [0]) ∧
      0 ∉ byteDiffs high₃ (byteDiffs high₂ (byteDiffs true [0])) := by
  revert high₂ high₃
  decide +kernel

lemma foldl_xxByte_of_high {b : UInt8} {q : List UInt8} (hb : ¬ b < 0x80) (hlen : q.length ≤ 2) (acc : BitVec 32) :
    (b :: q).foldl xxByte acc ≠ (b :: q).foldl xxh32Byte acc := by
  have hzero : acc - acc ∈ [(0 : BitVec 32)] := by simp
  have hfirst := sub_mem_byteDiffs hzero b
  simp only [hb, decide_false, Bool.not_false] at hfirst
  intro heq
  cases q with
  | nil =>
    rw [foldl_cons, foldl_cons, foldl_nil, foldl_nil] at heq
    rw [heq, sub_self] at hfirst
    exact (zero_notMem_byteDiffs true true).1 hfirst
  | cons b₂ q =>
    have hsecond := sub_mem_byteDiffs hfirst b₂
    cases q with
    | nil =>
      simp only [foldl_cons, foldl_nil] at heq
      rw [heq, sub_self] at hsecond
      exact (zero_notMem_byteDiffs _ true).2.1 hsecond
    | cons b₃ q =>
      obtain rfl : q = [] := by
        rw [← length_eq_zero_iff]
        simp only [length_cons] at hlen
        omega
      have hthird := sub_mem_byteDiffs hsecond b₃
      simp only [foldl_cons, foldl_nil] at heq
      rw [heq, sub_self] at hthird
      exact (zero_notMem_byteDiffs _ _).2.2 hthird

lemma foldl_xxByte_eq_iff {q : List UInt8} (hlen : q.length ≤ 3) (acc : BitVec 32) :
    q.foldl xxByte acc = q.foldl xxh32Byte acc ↔ ∀ b ∈ q, b < 0x80 := by
  induction q generalizing acc with
  | nil => simp
  | cons b q ih =>
    rw [length_cons] at hlen
    by_cases hb : b < 0x80
    · have hstep : xxByte acc b = xxh32Byte acc b := by
        rw [xxByte, signExtend_eq, if_pos hb, add_zero, xxRot32_eq _ (by decide), xxK1, xxK5, xxh32Byte]
      rw [foldl_cons, foldl_cons, hstep, ih (by omega), forall_mem_cons]
      exact (and_iff_right hb).symm
    · refine ⟨fun heq => absurd heq (foldl_xxByte_of_high hb (by omega) acc), fun hall => ?_⟩
      exact absurd (hall b mem_cons_self) hb

lemma xorShift_injective {r : Nat} (hr : 32 ≤ 3 * r) {x y : BitVec 32} (h : x ^^^ (x >>> r) = y ^^^ (y >>> r)) :
    x = y := by
  have hd : x ^^^ y = (x ^^^ y) >>> r := by
    rw [ushiftRight_xor_distrib, ← xor_eq_zero_iff]
    calc x ^^^ y ^^^ (x >>> r ^^^ y >>> r) = (x ^^^ x >>> r) ^^^ (y ^^^ y >>> r) := by ac_rfl
      _ = 0#32 := by rw [h, BitVec.xor_self]
  rw [← xor_eq_zero_iff, hd, hd, hd, ← shiftRight_add, ← shiftRight_add]
  exact ushiftRight_eq_zero (by omega)

lemma mul_injective {k i x y : BitVec 32} (hi : k * i = 1) (h : x * k = y * k) : x = y := by
  rw [← mul_one x, ← mul_one y, ← hi, ← mul_assoc, ← mul_assoc, h]

lemma xxh32Avalanche_injective {x y : BitVec 32} (h : xxh32Avalanche x = xxh32Avalanche y) : x = y := by
  have h₃ := mul_injective (i := 0xA89ED915) (by decide) (xorShift_injective (by decide) h)
  have h₂ := mul_injective (i := 0xB6C92F47) (by decide) (xorShift_injective (by decide) h₃)
  exact xorShift_injective (by decide) h₂

-- the four accumulators, or the fifth prime for a short string
lemma xxHead_eq : xxHead s = some (s.drop (16 * (s.length / 16)), xxh32Head s) := by
  unfold xxHead xxh32Head
  by_cases h : 16 ≤ s.length
  · rw [if_pos h, if_pos h, xxStripes_eq (by omega)]
    change some (_, _) = _
    rw [xxRot32_eq _ (by decide), xxRot32_eq _ (by decide), xxRot32_eq _ (by decide), xxRot32_eq _ (by decide), xxK1, xxK2]
  · rw [if_neg h, if_neg h, Nat.div_eq_of_lt (not_le.mp h), Nat.mul_zero, drop_zero, xxK5]

/-- No load of `XxHash` leaves the string, and the hash is xxHash32 exactly when the bytes behind the last
whole word are below 0x80. -/
theorem xxHash_is_xxh32_iff (s : List UInt8) :
    ∃ h, xxHash s = some h ∧ (h = xxh32 s ↔ ∀ b ∈ s.drop (4 * (s.length / 4)), b < 0x80) := by
  have hlen : (s.drop (16 * (s.length / 16))).length / 4 = s.length / 4 - 4 * (s.length / 16) := by
    rw [length_drop]
    omega
  have hrest : 16 * (s.length / 16) + 4 * (s.length / 4 - 4 * (s.length / 16)) = 4 * (s.length / 4) := by omega
  have hword : ∀ i, xxh32Word (s.drop (16 * (s.length / 16))) i = xxh32Word s (4 * (s.length / 16) + i) := by
    intro i
    rw [← xxh32Word_drop, ← Nat.mul_assoc]
  have htail : (s.drop (4 * (s.length / 4))).length ≤ 3 := by
    rw [length_drop]
    omega
  obtain ⟨acc, hacc⟩ : ∃ acc, acc = (range' (4 * (s.length / 16)) (s.length / 4 - 4 * (s.length / 16))).foldl
    (fun acc i => xxh32Step acc (xxh32Word s i)) (xxh32Head s + BitVec.ofNat 32 s.length) := ⟨_, rfl⟩
  have hspec : xxh32 s = xxh32Avalanche ((s.drop (4 * (s.length / 4))).foldl xxh32Byte acc) := by rw [hacc]; rfl
  refine ⟨xxh32Avalanche ((s.drop (4 * (s.length / 4))).foldl xxByte acc), ?_, ?_⟩
  · unfold xxHash
    rw [xxHead_eq]
    change (xxWords _ _ _).bind _ = _
    rw [xxWords_eq (by omega), hlen, drop_drop, hrest]
    simp only [hword]
    rw [hacc, range'_eq_map_range, foldl_map]
    rfl
  · rw [hspec, ← foldl_xxByte_eq_iff htail acc]
    exact ⟨xxh32Avalanche_injective, congrArg xxh32Avalanche⟩

/-- The byte 0x80 alone is added as a negative number. -/
theorem xxHash_of_high_byte : xxHash [0x80] ≠ some (xxh32 [0x80]) := by
  decide

end Vesal.Proofs
