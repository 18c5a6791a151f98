import Vesal.Checksum

/-! # Combination of CRCs -/

namespace Vesal.Proofs

open Library List Function

variable (crc : BitVec 32) (len n : Nat)

def xPow : BitVec 32 → BitVec 32 := (mulX kCrc32cPolyReflect)^[n]

def monomial : BitVec 32 := xPow n (polyOne 32)

lemma xPow_xor (a b : BitVec 32) : xPow n (a ^^^ b) = xPow n a ^^^ xPow n b :=
  iterate_xor kCrc32cPolyReflect a b n

lemma xPow_add (m n : Nat) (b : BitVec 32) : xPow (m + n) b = xPow m (xPow n b) :=
  iterate_add_apply _ m n b

lemma xPow_mul (m n : Nat) : xPow (m * n) = (xPow m)^[n] := by
  unfold xPow
  rw [iterate_mul]

variable (b : BitVec 32)

lemma and_one_ne_zero : b &&& 1 ≠ 0 ↔ b.getLsbD 0 = true := by
  have h := BitVec.and_twoPow b 0
  rw [show BitVec.twoPow 32 0 = (1 : BitVec 32) by decide] at h
  rw [h]
  cases b.getLsbD 0
  · simp
  · simp

lemma mult_next :
    (if b &&& 1 ≠ 0 then (b >>> 1) ^^^ kCrc32cPolyReflect else b >>> 1) =
      mulX kCrc32cPolyReflect b := by
  unfold mulX
  by_cases h : b.getLsbD 0 = true
  · rw [if_pos ((and_one_ne_zero b).mpr h), if_pos h]
  · rw [if_neg (fun hc => h ((and_one_ne_zero b).mp hc)), if_neg h]

lemma toNat_twoPow_lt (hn : n < 32) : (BitVec.twoPow 32 n).toNat = 2 ^ n := by
  rw [BitVec.toNat_twoPow, Nat.mod_eq_of_lt (Nat.pow_lt_pow_right (by omega) hn)]

lemma and_twoPow_ne_zero (a : BitVec 32) (n : Nat) (hn : n < 32) :
    a &&& BitVec.twoPow 32 n ≠ 0 ↔ a.getLsbD n = true := by
  rw [BitVec.and_twoPow]
  cases a.getLsbD n
  · simp
  · simp only [if_true, iff_true]
    intro hzero
    have hbit := congrArg (fun v => v.getLsbD n) hzero
    simp [hn] at hbit

lemma and_pred_eq_zero (a : BitVec 32) (n : Nat) (hn : n < 32) :
    a &&& (BitVec.twoPow 32 n - 1) = 0 ↔ ∀ j < n, a.getLsbD j = false := by
  have hmask : (a &&& (BitVec.twoPow 32 n - 1)).toNat = a.toNat % 2 ^ n := by
    have hm : (BitVec.twoPow 32 n - 1).toNat = 2 ^ n - 1 := by
      rw [BitVec.toNat_sub_of_le, toNat_twoPow_lt n hn]
      · rfl
      · rw [BitVec.le_def, toNat_twoPow_lt n hn]
        exact Nat.one_le_two_pow
    rw [BitVec.toNat_and, hm, Nat.and_two_pow_sub_one_eq_mod]
  constructor
  · intro h j hj
    have hz : a.toNat % 2 ^ n = 0 := by
      rw [← hmask, h]
      rfl
    have hbit := Nat.testBit_mod_two_pow a.toNat n j
    rw [hz, Nat.zero_testBit, decide_eq_true hj, Bool.true_and] at hbit
    exact hbit.symm
  · intro h
    apply BitVec.eq_of_toNat_eq
    rw [hmask]
    apply Nat.eq_of_testBit_eq
    intro j
    by_cases hj : j < n
    · have hbit : a.toNat.testBit j = false := h j hj
      simp [hbit]
    · simp [hj]

lemma crc32MultLoop_eq (a b : BitVec 32) (n k : Nat) (hk : k + n = 32)
    (hbit : ∃ j < n, a.getLsbD j = true) :
    crc32MultLoop a n (BitVec.twoPow 32 (31 - k)) (polyMulUpTo kCrc32cPolyReflect a b k) (xPow k b) =
      .ok (polyMul kCrc32cPolyReflect a b) := by
  induction n generalizing k with
  | zero =>
    omega
  | succ n ih =>
    have hn : 31 - k = n := by omega
    have hcoeff : coeff a k = a.getLsbD n := by
      rw [coeff, decide_eq_true (show k < 32 by omega), Bool.true_and]
      congr 1
    have hnext : xPow (k + 1) b = mulX kCrc32cPolyReflect (xPow k b) :=
      iterate_succ_apply' _ k b
    have hterm : polyMulUpTo kCrc32cPolyReflect a b (k + 1) =
        polyMulUpTo kCrc32cPolyReflect a b k ^^^ (if a.getLsbD n then xPow k b else 0#32) := by
      rw [polyMulUpTo, hcoeff]
      rfl
    have hshift : n ≠ 0 → BitVec.twoPow 32 n >>> 1 = BitVec.twoPow 32 (31 - (k + 1)) := by
      intro hn0
      rw [show 31 - (k + 1) = n - 1 by omega]
      apply BitVec.eq_of_toNat_eq
      rw [BitVec.toNat_ushiftRight, toNat_twoPow_lt n (by omega), toNat_twoPow_lt (n - 1) (by omega),
        Nat.shiftRight_eq_div_pow, Nat.pow_div (by omega) (by omega)]
    rw [crc32MultLoop, mult_next, hn]
    by_cases hset : a.getLsbD n = true
    · rw [if_pos ((and_twoPow_ne_zero a n (by omega)).mpr hset)]
      rw [hset, if_pos rfl] at hterm
      by_cases hlow : a &&& (BitVec.twoPow 32 n - 1) = 0
      · have hrest : ∀ i, k + 1 ≤ i → coeff a i = false := by
          intro i hi
          by_cases hi32 : i < 32
          · rw [coeff, decide_eq_true hi32, Bool.true_and]
            exact (and_pred_eq_zero a n (by omega)).mp hlow _ (by omega)
          · simp [coeff, hi32]
        rw [if_pos hlow, ← hterm, polyMul, polyMulUpTo_of_coeff_zero kCrc32cPolyReflect a b hrest
          32 (by omega)]
      · obtain ⟨j, hj, hjset⟩ : ∃ j < n, a.getLsbD j = true := by
          by_contra hnone
          apply hlow
          rw [and_pred_eq_zero a n (by omega)]
          intro j hj
          by_contra hjset
          exact hnone ⟨j, hj, by simpa using hjset⟩
        rw [if_neg hlow, ← hterm, ← hnext, hshift (by omega)]
        exact ih (k + 1) (by omega) ⟨j, hj, hjset⟩
    · rw [if_neg (fun hc => hset ((and_twoPow_ne_zero a n (by omega)).mp hc))]
      obtain ⟨j, hj, hjset⟩ := hbit
      have hjn : j ≠ n := by
        intro he
        rw [he] at hjset
        exact hset hjset
      rw [if_neg hset, BitVec.xor_zero] at hterm
      rw [← hterm, ← hnext, hshift (by omega)]
      exact ih (k + 1) (by omega) ⟨j, by omega, hjset⟩

/-- `crc32Mult` ends as soon as its first factor is not zero. -/
theorem crc32Mult_eq (a b : BitVec 32) (ha : a ≠ 0) :
    crc32Mult a b = .ok (polyMul kCrc32cPolyReflect a b) := by
  have hbit : ∃ j < 32, a.getLsbD j = true := by
    by_contra hnone
    apply ha
    apply BitVec.eq_of_getLsbD_eq
    intro j hj
    by_contra hne
    apply hnone
    refine ⟨j, hj, ?_⟩
    simpa using hne
  exact crc32MultLoop_eq a b 32 0 rfl hbit

lemma monomial_ne_zero : monomial n ≠ 0 := by
  induction n with
  | zero => decide
  | succ n ih =>
    intro h
    apply ih
    apply mulX_eq_zero kCrc32cPolyReflect (monomial n) (by decide)
    rw [← h]
    exact (iterate_succ_apply' _ n _).symm

lemma polyMul_monomial :
    polyMul kCrc32cPolyReflect (monomial n) b = xPow n b :=
  polyMul_iterate kCrc32cPolyReflect b (by decide) n

lemma crc32Mult_monomial : crc32Mult (monomial n) b = .ok (xPow n b) := by
  rw [crc32Mult_eq _ _ (monomial_ne_zero n), polyMul_monomial]

lemma xPow_monomial (m n : Nat) : xPow m (monomial n) = monomial (m + n) :=
  (xPow_add m n _).symm

def squareTimes : Nat → BitVec 32 → Except CombineFault (BitVec 32)
  | 0, p => .ok p
  | n + 1, p => do squareTimes n (← crc32Mult p p)

lemma squareTimes_monomial (n m : Nat) :
    squareTimes n (monomial m) = .ok (monomial (m * 2 ^ n)) := by
  induction n generalizing m with
  | zero => simp [squareTimes]
  | succ n ih =>
    rw [squareTimes, crc32Mult_monomial, xPow_monomial]
    have hpow : m * 2 ^ (n + 1) = (m + m) * 2 ^ n := by ring
    rw [hpow]
    exact ih (m + m)

lemma monomial_order : monomial (2 ^ 31) = monomial 1 := by
  have hsquare := squareTimes_monomial 31 1
  have heval : squareTimes 31 (monomial 1) = .ok (monomial 1) := by decide +kernel
  rw [heval, Nat.one_mul] at hsquare
  exact (Except.ok.inj hsquare).symm

lemma xPow_order : xPow (2 ^ 31 * n) b = xPow n b := by
  have hone : xPow (2 ^ 31) = xPow 1 := by
    funext c
    exact iterate_eq_of_polyOne kCrc32cPolyReflect monomial_order c
  have h := xPow_mul 1 n
  rw [Nat.one_mul] at h
  rw [xPow_mul, hone, h]

lemma foldLength_eq :
    foldLength len = if 2 ^ 31 ≤ len then len % 2 ^ 31 + len / 2 ^ 31 else len := by
  rw [foldLength, Nat.and_two_pow_sub_one_eq_mod, Nat.shiftRight_eq_div_pow]

lemma xPow_foldLength : xPow (8 * foldLength len) b = xPow (8 * len) b := by
  rw [foldLength_eq]
  split
  · have hsplit : 8 * len = 8 * (len % 2 ^ 31) + 2 ^ 31 * (8 * (len / 2 ^ 31)) := by omega
    rw [hsplit, Nat.mul_add, xPow_add, xPow_add, xPow_order]
  · rfl

lemma foldLength_twice_lt (hlen : len < 2 ^ 64) :
    foldLength (foldLength len) < 2 ^ 32 := by
  have hfirst : foldLength len < 2 ^ 34 := by
    rw [foldLength_eq]
    split <;> omega
  rw [foldLength_eq (foldLength len)]
  split <;> omega

def entryAt (index : Nat) : BitVec 32 := kCRC32X64NTable.getD index 0

def InTable (i j : Nat) : Prop := i < 5 ∧ j < 64 ∨ i = 5 ∧ j < 4

def rowNext (s : BitVec 32) : List (BitVec 32) → Bool
  | a :: b :: row => decide (crc32Mult s a = .ok b) && rowNext s (b :: row)
  | _ => true

variable {j i : Nat}

lemma rowNext_get {s : BitVec 32} {row : List (BitVec 32)} (h : rowNext s row = true) (hj : j + 1 < row.length) :
    crc32Mult s (row.getD j 0) = .ok (row.getD (j + 1) 0) := by
  induction row generalizing j with
  | nil => simp at hj
  | cons a row ih =>
    cases row with
    | nil => simp at hj
    | cons b row =>
      simp only [rowNext, Bool.and_eq_true, decide_eq_true_eq] at h
      cases j with
      | zero => exact h.1
      | succ j => exact ih h.2 (Nat.lt_of_succ_lt_succ hj)

def rowLength (i : Nat) : Nat := if i = 5 then 4 else 64

/-- What makes the table one of powers: each row starts with 1 and goes on with the powers of its
second entry, which is the next power of the one before. -/
structure TableChecked : Prop where
  length : kCRC32X64NTable.length = 384
  start : ∀ i < 6, entryAt (i * 64) = polyOne 32
  next : ∀ i < 6, rowNext (entryAt (i * 64 + 1)) ((kCRC32X64NTable.drop (i * 64)).take (rowLength i)) = true
  second : entryAt 1 = monomial 8
  nextRow : ∀ i < 5,
    crc32Mult (entryAt (i * 64 + 63)) (entryAt (i * 64 + 1)) = .ok (entryAt ((i + 1) * 64 + 1))

lemma tableChecked : TableChecked := by
  -- walking along the rows is faster than looking up each entry
  have hchecks : kCRC32X64NTable.length = 384 ∧ (∀ i < 6, entryAt (i * 64) = polyOne 32) ∧
      (∀ i < 6, rowNext (entryAt (i * 64 + 1)) ((kCRC32X64NTable.drop (i * 64)).take (rowLength i)) = true) ∧
      entryAt 1 = monomial 8 ∧ ∀ i < 5,
        crc32Mult (entryAt (i * 64 + 63)) (entryAt (i * 64 + 1)) = .ok (entryAt ((i + 1) * 64 + 1)) := by
    decide +kernel
  obtain ⟨hlength, hstart, hnext, hsecond, hnextRow⟩ := hchecks
  exact ⟨hlength, hstart, hnext, hsecond, hnextRow⟩

lemma inTable_next (h : InTable i (j + 1)) :
    InTable i j ∧
      crc32Mult (entryAt (i * 64 + 1)) (entryAt (i * 64 + j)) = .ok (entryAt (i * 64 + j + 1)) := by
  have hbounds : InTable i j ∧ i < 6 ∧ j + 1 < rowLength i := by
    unfold InTable at h ⊢
    unfold rowLength
    split <;> omega
  obtain ⟨hj, hi, hlt⟩ := hbounds
  have hrow : ∀ k < rowLength i,
      ((kCRC32X64NTable.drop (i * 64)).take (rowLength i)).getD k 0 = entryAt (i * 64 + k) := by
    intro k hk
    rw [entryAt, getD_eq_getElem?_getD, getD_eq_getElem?_getD, getElem?_take_of_lt hk,
      getElem?_drop]
  have hlen : j + 1 < ((kCRC32X64NTable.drop (i * 64)).take (rowLength i)).length := by
    rw [length_take, length_drop, tableChecked.length]
    have hrowLength : rowLength i ≤ 64 := by
      unfold rowLength
      split <;> omega
    omega
  have hget := rowNext_get (tableChecked.next i hi) hlen
  rw [hrow j (by omega), hrow (j + 1) hlt] at hget
  exact ⟨hj, hget⟩

lemma entryAt_row (i n : Nat) (hrow : entryAt (i * 64 + 1) = monomial n) (j : Nat) (h : InTable i j) :
    entryAt (i * 64 + j) = monomial (n * j) := by
  induction j with
  | zero =>
    have hi : i < 6 := by
      unfold InTable at h
      omega
    exact tableChecked.start i hi
  | succ j ih =>
    obtain ⟨hj, hmult⟩ := inTable_next h
    rw [ih hj, hrow, crc32Mult_monomial, xPow_monomial] at hmult
    rw [← Nat.add_assoc, ← Except.ok.inj hmult, Nat.mul_add, Nat.mul_one, Nat.add_comm]

lemma entryAt_second (i : Nat) (hi : i < 6) : entryAt (i * 64 + 1) = monomial (8 * 64 ^ i) := by
  induction i with
  | zero => exact tableChecked.second
  | succ i ih =>
    have hrow := ih (by omega)
    have hlast := entryAt_row i _ hrow 63 (.inl ⟨by omega, by omega⟩)
    have hmult := tableChecked.nextRow i (by omega)
    rw [hrow, hlast, crc32Mult_monomial, xPow_monomial] at hmult
    rw [← Except.ok.inj hmult]
    congr 1
    ring

theorem tableEntry_eq (i j : Nat) (h : InTable i j) :
    tableEntry (i * 64 + j) = .ok (monomial (8 * (j * 64 ^ i))) := by
  have hindex : i * 64 + j < 324 := by
    unfold InTable at h
    omega
  have hentry : entryAt (i * 64 + j) = monomial (8 * (j * 64 ^ i)) := by
    have hi : i < 6 := by
      unfold InTable at h
      omega
    rw [entryAt_row i _ (entryAt_second i hi) j h]
    congr 1
    ring
  have hlen := tableChecked.length
  have hget : kCRC32X64NTable[i * 64 + j]? = some (entryAt (i * 64 + j)) := by
    have hlt : i * 64 + j < kCRC32X64NTable.length := by omega
    rw [entryAt, getD_eq_getElem?_getD, getElem?_eq_getElem hlt]
    rfl
  rw [tableEntry, hget, hentry]
  exact if_neg (monomial_ne_zero _)

lemma and_63 : len &&& 63 = len % 64 := Nat.and_two_pow_sub_one_eq_mod len 6

lemma shiftRight_6 : len >>> 6 = len / 64 := Nat.shiftRight_eq_div_pow len 6

lemma inTable_of_lt {len : Nat} (hlen : len * 64 ^ i < 2 ^ 32) (hj : len % 64 ≠ 0) :
    InTable i (len % 64) := by
  have hle : len % 64 * 64 ^ i ≤ len * 64 ^ i := Nat.mul_le_mul_right _ (Nat.mod_le _ _)
  by_cases hi : i < 5
  · exact .inl ⟨hi, Nat.mod_lt _ (by decide)⟩
  · by_cases hi5 : i = 5
    · subst hi5
      exact .inr ⟨rfl, by omega⟩
    · have hpow : 64 ^ 6 ≤ 64 ^ i := Nat.pow_le_pow_right (by decide) (by omega)
      have hone : 1 * 64 ^ 6 ≤ len % 64 * 64 ^ i := Nat.mul_le_mul (by omega) hpow
      omega

lemma skipZeroGroups_eq (fuel len i : Nat) (hpos : len ≠ 0) (hlen : len < 64 ^ fuel) :
    ∃ len' d, skipZeroGroups fuel len i = .ok (len', i + d) ∧ len = len' * 64 ^ d ∧
      len' % 64 ≠ 0 ∧ len' < 64 ^ fuel := by
  induction fuel generalizing len i with
  | zero =>
    omega
  | succ fuel ih =>
    rw [skipZeroGroups, and_63, shiftRight_6]
    by_cases hzero : len % 64 = 0
    · rw [if_pos hzero]
      rw [Nat.pow_succ] at hlen ⊢
      obtain ⟨len', d, hskip, hval, hmod, hlt⟩ := ih (len / 64) (i + 1) (by omega) (by omega)
      refine ⟨len', d + 1, ?_, ?_, hmod, by omega⟩
      · rw [hskip, Nat.add_assoc, Nat.add_comm 1 d]
      · rw [Nat.pow_succ, ← Nat.mul_assoc, ← hval]
        omega
    · rw [if_neg hzero]
      exact ⟨len, 0, rfl, by simp, hzero, hlen⟩

lemma multiplyGroups_eq (n len i : Nat) (p : BitVec 32) (hlen : len < 64 ^ n)
    (hbound : len * 64 ^ i < 2 ^ 32) :
    multiplyGroups (n + 1) len i p = .ok (xPow (8 * (len * 64 ^ i)) p) := by
  induction n generalizing len i p with
  | zero =>
    have hzero : len = 0 := by omega
    subst hzero
    simp [multiplyGroups, xPow]
  | succ n ih =>
    by_cases hzero : len = 0
    · subst hzero
      simp [multiplyGroups, xPow]
    · rw [Nat.pow_succ] at hlen
      have hsplit : len * 64 ^ i = len / 64 * 64 ^ (i + 1) + len % 64 * 64 ^ i := by
        conv_lhs => rw [← Nat.div_add_mod len 64]
        ring
      rw [multiplyGroups, if_neg hzero, and_63, shiftRight_6]
      have hrest := fun q => ih (len / 64) (i + 1) q (by omega) (by omega)
      by_cases hgroup : len % 64 = 0
      · rw [hgroup, Nat.zero_mul, Nat.add_zero] at hsplit
        rw [if_pos hgroup, hrest, hsplit]
      · rw [if_neg hgroup, tableEntry_eq i _ (inTable_of_lt hbound hgroup)]
        have hmult : (do
            let p ← crc32Mult (monomial (8 * (len % 64 * 64 ^ i))) p
            multiplyGroups (n + 1) (len / 64) (i + 1) p) =
              multiplyGroups (n + 1) (len / 64) (i + 1) (xPow (8 * (len % 64 * 64 ^ i)) p) := by
          rw [crc32Mult_monomial]
          rfl
        rw [hsplit, Nat.mul_add, xPow_add, ← hrest]
        exact hmult

/-- `CRC32CombineGen` is `x` to the number of bits of the second string. -/
theorem crc32CombineGen_eq (hlen : len < 2 ^ 64) :
    crc32CombineGen len = .ok (monomial (8 * len)) := by
  have hfold : monomial (8 * len) = monomial (8 * foldLength (foldLength len)) := by
    unfold monomial
    rw [xPow_foldLength, xPow_foldLength]
  have hbound := foldLength_twice_lt len hlen
  rw [crc32CombineGen, hfold]
  generalize foldLength (foldLength len) = m at hbound
  by_cases hzero : m = 0
  · subst hzero
    decide
  · obtain ⟨m', d, hskip, hval, hmod, hlt⟩ := skipZeroGroups_eq 11 m 0 hzero (by omega)
    rw [hval] at hbound
    have hentry := tableEntry_eq d _ (inTable_of_lt hbound hmod)
    have hsplit : m' * 64 ^ d = m' / 64 * 64 ^ (d + 1) + m' % 64 * 64 ^ d := by
      conv_lhs => rw [← Nat.div_add_mod m' 64]
      ring
    have hgroups := multiplyGroups_eq 11 (m' / 64) (d + 1) (monomial (8 * (m' % 64 * 64 ^ d)))
      (by omega) (by omega)
    rw [xPow_monomial, ← Nat.mul_add, ← hsplit] at hgroups
    rw [if_neg hzero, hskip, hval, ← hgroups]
    simp only [Nat.zero_add, and_63, shiftRight_6, bind, Except.bind, hentry]

lemma crc32b_eq (byte : UInt8) : crc32b crc byte = xPow 8 crc ^^^ crc32b 0 byte := by
  have hzero : (0 : BitVec 32) ^^^ byte.toBitVec.setWidth 32 = byte.toBitVec.setWidth 32 :=
    BitVec.zero_xor
  unfold crc32b
  rw [hzero]
  exact xPow_xor 8 crc _

lemma crcUpdate_append (s t : List UInt8) :
    crcUpdate crc (s ++ t) = crcUpdate (crcUpdate crc s) t :=
  foldl_append

/-- The start value is shifted by the bits of the string. -/
theorem crcUpdate_eq (s : List UInt8) :
    crcUpdate crc s = xPow (8 * s.length) crc ^^^ crcUpdate 0 s := by
  induction s generalizing crc with
  | nil =>
    have hzero : crc ^^^ (0 : BitVec 32) = crc := BitVec.xor_zero
    exact hzero.symm
  | cons byte s ih =>
    have hstep : ∀ c, crcUpdate c (byte :: s) = crcUpdate (crc32b c byte) s := fun _ => rfl
    rw [hstep, hstep, ih (crc32b crc byte), ih (crc32b 0 byte), crc32b_eq crc byte, xPow_xor,
      ← xPow_add, BitVec.xor_assoc, length_cons, Nat.mul_add, Nat.mul_one]

lemma crc32Combine_eq (init crc1 : BitVec 32) (s : List UInt8) (hs : s.length < 2 ^ 64) :
    crc32Combine (init ^^^ crc1) (crcUpdate init s) s.length = .ok (crcUpdate crc1 s) := by
  have hvalue : xPow (8 * s.length) (init ^^^ crc1) ^^^ crcUpdate init s = crcUpdate crc1 s := by
    rw [crcUpdate_eq init s, crcUpdate_eq crc1 s, xPow_xor]
    generalize xPow (8 * s.length) init = u
    generalize xPow (8 * s.length) crc1 = v
    rw [← BitVec.xor_assoc, BitVec.xor_comm u v, BitVec.xor_assoc v u u, BitVec.xor_self]
    congr 1
    exact BitVec.xor_zero
  rw [crc32Combine, crc32CombineGen_eq _ hs, ← hvalue]
  have hmult := crc32Mult_monomial (8 * s.length) (init ^^^ crc1)
  simp only [crc32CombineOp, bind, Except.bind, hmult]
  rfl

lemma combineThreeCRC32_eq (init : BitVec 32) (a b c : List UInt8) (hb : b.length < 2 ^ 64)
    (hc : c.length < 2 ^ 64) :
    combineThreeCRC32 init (crcUpdate init a) (crcUpdate init b) (crcUpdate init c) b.length c.length =
      .ok (crcUpdate init (a ++ b ++ c)) := by
  rw [combineThreeCRC32, crc32Combine_eq init _ b hb, crcUpdate_append, crcUpdate_append]
  exact crc32Combine_eq init _ c hc

/-- The combinations of `checksum_impl.h` give the CRC of the concatenation. That they
return at all says that every table access is at an initialised entry and that every
loop ends. -/
theorem crc32_combinations (a b c : List UInt8) (hb : b.length < 2 ^ 64) (hc : c.length < 2 ^ 64) :
    crc32Combine (kCrc32cInitialValue ^^^ crcUpdate kCrc32cInitialValue a)
        (crcUpdate kCrc32cInitialValue b) b.length =
      .ok (crcUpdate kCrc32cInitialValue (a ++ b)) ∧
    combineThreeCRC32 kCrc32cInitialValue (crcUpdate kCrc32cInitialValue a)
        (crcUpdate kCrc32cInitialValue b) (crcUpdate kCrc32cInitialValue c) b.length c.length =
      .ok (crcUpdate kCrc32cInitialValue (a ++ b ++ c)) := by
  constructor
  · rw [crcUpdate_append]
    exact crc32Combine_eq kCrc32cInitialValue _ b hb
  · exact combineThreeCRC32_eq kCrc32cInitialValue a b c hb hc

theorem crc32_combinations_short :
    combineThreeCRC32 kCrc32cInitialValue (crcUpdate kCrc32cInitialValue [0x31])
        (crcUpdate kCrc32cInitialValue [0x32, 0x33]) (crcUpdate kCrc32cInitialValue []) 2 0 =
      .ok (crcUpdate kCrc32cInitialValue [0x31, 0x32, 0x33]) :=
  (crc32_combinations [0x31] [0x32, 0x33] [] (by decide) (by decide)).2

lemma crc32Combine_value (crc1 crc2 : BitVec 32) {len : Nat} (hlen : len < 2 ^ 64) :
    crc32Combine crc1 crc2 len = .ok (xPow (8 * len) crc1 ^^^ crc2) := by
  have hmult := crc32Mult_monomial (8 * len) crc1
  rw [crc32Combine, crc32CombineGen_eq _ hlen]
  simp only [crc32CombineOp, bind, Except.bind, hmult]
  rfl

/-- Parts may be combined in either order, whatever their CRCs are. -/
theorem crc32Combine_assoc (crc1 crc2 crc3 : BitVec 32) (m n : Nat) (hlen : m + n < 2 ^ 64) :
    ∃ crc, (do crc32Combine (← crc32Combine crc1 crc2 m) crc3 n) = .ok crc ∧
      (do crc32Combine crc1 (← crc32Combine crc2 crc3 n) (m + n)) = .ok crc := by
  rw [crc32Combine_value crc1 crc2 (by omega), crc32Combine_value crc2 crc3 (by omega)]
  refine ⟨_, crc32Combine_value _ crc3 (by omega), ?_⟩
  change crc32Combine crc1 _ (m + n) = _
  rw [crc32Combine_value _ _ hlen, xPow_xor, ← xPow_add, ← Nat.mul_add, Nat.add_comm n, BitVec.xor_assoc]

theorem crc32Combine_assoc_max :
    ∃ crc, (do crc32Combine (← crc32Combine 1 2 3) 4 (2 ^ 64 - 4)) = .ok crc ∧
      (do crc32Combine 1 (← crc32Combine 2 4 (2 ^ 64 - 4)) (2 ^ 64 - 1)) = .ok crc :=
  crc32Combine_assoc 1 2 4 3 (2 ^ 64 - 4) (by decide)

end Vesal.Proofs
