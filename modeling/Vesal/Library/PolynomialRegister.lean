import Mathlib.Tactic

/-!
# Polynomials over GF(2) in a reflected register

A register of `w` bits holds a polynomial of degree below `w` in reflected order: bit
`w - 1` is the constant coefficient and bit `0` the coefficient of `x ^ (w - 1)`.
Addition is exclusive or. `mulX` multiplies by `x` modulo the polynomial
`x ^ w + poly`, and `polyMul` is the product in the quotient ring.
-/

namespace Vesal.Library

open Function Bool BitVec

variable {w : Nat}

/-- Multiplication by `x`: one shift of the register, reduced by `poly`. -/
def mulX (poly b : BitVec w) : BitVec w :=
  if b.getLsbD 0 then (b >>> 1) ^^^ poly else b >>> 1

/-- The polynomial `1`. -/
def polyOne (w : Nat) : BitVec w := twoPow w (w - 1)

/-- The coefficient of `x ^ i`. -/
def coeff (a : BitVec w) (i : Nat) : Bool := decide (i < w) && a.getLsbD (w - 1 - i)

/-- The first `k` terms of the product: the sum of `x ^ i * b` over the coefficients of `a`. -/
def polyMulUpTo (poly a b : BitVec w) : Nat → BitVec w
  | 0 => 0
  | k + 1 => polyMulUpTo poly a b k ^^^ (if coeff a k then (mulX poly)^[k] b else 0)

def polyMul (poly a b : BitVec w) : BitVec w := polyMulUpTo poly a b w

lemma mulX_xor (poly a b : BitVec w) : mulX poly (a ^^^ b) = mulX poly a ^^^ mulX poly b := by
  unfold mulX
  rw [getLsbD_xor, ushiftRight_xor_distrib]
  cases a.getLsbD 0 <;> cases b.getLsbD 0
  · simp
  · simp [BitVec.xor_assoc]
  · simp only [Bool.xor_false, if_true, Bool.false_eq_true, if_false]
    rw [BitVec.xor_assoc, BitVec.xor_assoc, BitVec.xor_comm (b >>> 1)]
  · simp only [Bool.xor_self, if_true, Bool.false_eq_true, if_false]
    apply eq_of_getLsbD_eq
    intro i _
    simp only [getLsbD_xor]
    cases (a >>> 1).getLsbD i <;> cases (b >>> 1).getLsbD i <;> cases poly.getLsbD i <;> rfl

@[simp] lemma mulX_zero (poly : BitVec w) : mulX poly 0 = 0 := by simp [mulX]

/-- When the constant coefficient of the modulus is set, multiplication by `x` loses
nothing. -/
lemma mulX_eq_zero (poly b : BitVec w) (hpoly : poly.getLsbD (w - 1) = true)
    (h : mulX poly b = 0) : b = 0 := by
  have hbit : ∀ i, (mulX poly b).getLsbD i = false := by
    intro i
    rw [h]
    exact getLsbD_zero
  unfold mulX at hbit
  cases hlow : b.getLsbD 0
  · rw [hlow] at hbit
    apply eq_of_getLsbD_eq
    intro i hi
    cases i with
    | zero => exact hlow.trans getLsbD_zero.symm
    | succ i =>
      have hi' := hbit i
      simp only [false_eq_true, if_false, getLsbD_ushiftRight] at hi'
      rw [Nat.add_comm 1 i] at hi'
      exact hi'.trans getLsbD_zero.symm
  · rw [hlow] at hbit
    have htop := hbit (w - 1)
    simp only [if_true, getLsbD_xor, getLsbD_ushiftRight, hpoly] at htop
    rw [getLsbD_of_ge b _ (by omega)] at htop
    cases htop

/-- A map on registers that is additive and commutes with multiplication by `x`. -/
structure XLinear (poly : BitVec w) (f : BitVec w → BitVec w) : Prop where
  map_xor : ∀ a b, f (a ^^^ b) = f a ^^^ f b
  map_mulX : ∀ a, f (mulX poly a) = mulX poly (f a)

namespace XLinear

variable {poly : BitVec w} {f : BitVec w → BitVec w}

lemma map_zero (h : XLinear poly f) : f 0 = 0 := by
  have hz := h.map_xor 0 0
  rw [BitVec.xor_self, BitVec.xor_self] at hz
  exact hz

lemma map_iterate (h : XLinear poly f) (n : Nat) (a : BitVec w) :
    f ((mulX poly)^[n] a) = (mulX poly)^[n] (f a) := by
  induction n with
  | zero => rfl
  | succ n ih => rw [iterate_succ_apply', iterate_succ_apply', h.map_mulX, ih]

lemma map_ite (h : XLinear poly f) (c : Bool) (a : BitVec w) :
    f (if c then a else 0) = if c then f a else 0 := by
  cases c
  · exact h.map_zero
  · rfl

lemma map_polyMulUpTo (h : XLinear poly f) (a b : BitVec w) (k : Nat) :
    f (polyMulUpTo poly a b k) = polyMulUpTo poly a (f b) k := by
  induction k with
  | zero => exact h.map_zero
  | succ k ih => rw [polyMulUpTo, polyMulUpTo, h.map_xor, ih, h.map_ite, h.map_iterate]

end XLinear

lemma xlinear_mulX (poly : BitVec w) : XLinear poly (mulX poly) :=
  ⟨mulX_xor poly, fun _ => rfl⟩

lemma xlinear_iterate (poly : BitVec w) (n : Nat) : XLinear poly (mulX poly)^[n] := by
  induction n with
  | zero => exact ⟨fun _ _ => rfl, fun _ => rfl⟩
  | succ n ih =>
    constructor
    · intro a b
      rw [iterate_succ_apply', ih.map_xor, mulX_xor, iterate_succ_apply',
        iterate_succ_apply']
    · intro a
      rw [iterate_succ_apply', ih.map_mulX, iterate_succ_apply']

lemma coeff_xor (a b : BitVec w) (i : Nat) : coeff (a ^^^ b) i = (coeff a i ^^ coeff b i) := by
  unfold coeff
  cases decide (i < w) <;> simp

lemma polyMulUpTo_xor_left (poly a a' b : BitVec w) (k : Nat) :
    polyMulUpTo poly (a ^^^ a') b k = polyMulUpTo poly a b k ^^^ polyMulUpTo poly a' b k := by
  induction k with
  | zero => simp [polyMulUpTo]
  | succ k ih =>
    rw [polyMulUpTo, polyMulUpTo, polyMulUpTo, ih, coeff_xor]
    cases coeff a k with
    | false =>
      simp only [false_xor, false_eq_true, if_false]
      ac_rfl
    | true =>
      cases coeff a' k with
      | false =>
        simp only [Bool.xor_false, Bool.false_eq_true, if_true, if_false]
        ac_rfl
      | true =>
        -- both sums have the term, and the product of the sum has it twice
        have hcancel : ∀ x y z : BitVec w, x ^^^ z ^^^ (y ^^^ z) = x ^^^ y := by
          intro x y z
          rw [BitVec.xor_assoc, BitVec.xor_comm z, BitVec.xor_assoc, BitVec.xor_self, BitVec.xor_zero]
        simp [hcancel]

lemma iterate_xor (poly a b : BitVec w) (n : Nat) :
    (mulX poly)^[n] (a ^^^ b) = (mulX poly)^[n] a ^^^ (mulX poly)^[n] b :=
  (xlinear_iterate poly n).map_xor a b

lemma polyMulUpTo_xor_right (poly a b b' : BitVec w) (k : Nat) :
    polyMulUpTo poly a (b ^^^ b') k = polyMulUpTo poly a b k ^^^ polyMulUpTo poly a b' k := by
  induction k with
  | zero => simp [polyMulUpTo]
  | succ k ih =>
    rw [polyMulUpTo, polyMulUpTo, polyMulUpTo, ih, iterate_xor]
    cases coeff a k with
    | false => simp
    | true =>
      simp only [if_true]
      ac_rfl

lemma polyMulUpTo_of_coeff_zero (poly a b : BitVec w) {k : Nat}
    (h : ∀ i, k ≤ i → coeff a i = false) (n : Nat) (hn : k ≤ n) :
    polyMulUpTo poly a b n = polyMulUpTo poly a b k := by
  induction n with
  | zero => rw [show k = 0 by omega]
  | succ n ih =>
    by_cases he : k = n + 1
    · rw [he]
    · rw [polyMulUpTo, h n (by omega), ih (by omega)]
      simp

/-- Multiplication by a fixed factor is additive and commutes with `mulX`. -/
lemma xlinear_polyMul (poly a : BitVec w) : XLinear poly (polyMul poly a) := by
  constructor
  · intro b b'
    exact polyMulUpTo_xor_right poly a b b' w
  · intro b
    exact ((xlinear_mulX poly).map_polyMulUpTo a b w).symm

lemma iterate_polyOne (poly : BitVec w) (n : Nat) (hn : n < w) :
    (mulX poly)^[n] (polyOne w) = twoPow w (w - 1 - n) := by
  induction n with
  | zero => rfl
  | succ n ih =>
    rw [iterate_succ_apply', ih (by omega)]
    have hbit : (twoPow w (w - 1 - n)).getLsbD 0 = false := by
      rw [getLsbD_twoPow]
      simp
      omega
    rw [mulX, hbit]
    apply eq_of_getLsbD_eq
    intro i hi
    simp only [false_eq_true, if_false, getLsbD_ushiftRight, getLsbD_twoPow]
    congr 1
    · simp only [decide_eq_decide]
      omega
    · simp only [decide_eq_decide]
      omega

/-- The bits of a partial product with `1`: the high bits of the factor. -/
lemma polyMulUpTo_polyOne (poly a : BitVec w) (k i : Nat) (hk : k ≤ w) (hi : i < w) :
    (polyMulUpTo poly a (polyOne w) k).getLsbD i = (decide (w - k ≤ i) && a.getLsbD i) := by
  induction k with
  | zero => simp [polyMulUpTo, show ¬w ≤ i by omega]
  | succ k ih =>
    rw [polyMulUpTo, getLsbD_xor, ih (by omega), iterate_polyOne poly k (by omega)]
    have hcoeff : coeff a k = a.getLsbD (w - 1 - k) := by simp [coeff, show k < w by omega]
    rw [hcoeff]
    by_cases he : i = w - 1 - k
    · subst he
      have h1 : ¬w - k ≤ w - 1 - k := by omega
      have h2 : w - (k + 1) ≤ w - 1 - k := by omega
      cases ha : a.getLsbD (w - 1 - k) <;> simp [h1, h2, getLsbD_twoPow]
      omega
    · have hle : (w - (k + 1) ≤ i) ↔ (w - k ≤ i) := by omega
      have hne : ¬w - 1 - k = i := fun h => he h.symm
      cases a.getLsbD (w - 1 - k) <;> simp [hle, hne, getLsbD_twoPow]

@[simp] lemma polyMul_polyOne (poly a : BitVec w) : polyMul poly a (polyOne w) = a := by
  apply eq_of_getLsbD_eq
  intro i hi
  rw [polyMul, polyMulUpTo_polyOne poly a w i le_rfl hi]
  simp

/-- An additive map that commutes with `mulX` is multiplication by its value at `1`. -/
theorem XLinear.eq_polyMul {poly : BitVec w} {f : BitVec w → BitVec w} (h : XLinear poly f)
    (b : BitVec w) : f b = polyMul poly b (f (polyOne w)) := by
  calc f b = f (polyMul poly b (polyOne w)) := by rw [polyMul_polyOne]
    _ = polyMul poly b (f (polyOne w)) := h.map_polyMulUpTo b _ w

/-- Two such maps agree as soon as they agree at `1`. -/
theorem XLinear.ext {poly : BitVec w} {f g : BitVec w → BitVec w} (hf : XLinear poly f)
    (hg : XLinear poly g) (h : f (polyOne w) = g (polyOne w)) (b : BitVec w) : f b = g b := by
  rw [hf.eq_polyMul b, hg.eq_polyMul b, h]

lemma coeff_polyOne (i : Nat) : coeff (polyOne w) i = (decide (i < w) && decide (i = 0)) := by
  unfold coeff polyOne
  by_cases hi : i < w
  · simp only [hi, decide_true, Bool.true_and, BitVec.getLsbD_twoPow]
    rw [decide_eq_true (show w - 1 < w by omega), Bool.true_and]
    simp only [decide_eq_decide]
    omega
  · simp [hi]

@[simp] lemma polyOne_polyMul (poly b : BitVec w) (hw : 0 < w) : polyMul poly (polyOne w) b = b := by
  have hall : ∀ k, 0 < k → k ≤ w → polyMulUpTo poly (polyOne w) b k = b := by
    intro k hpos hk
    induction k with
    | zero => omega
    | succ k ih =>
      rw [polyMulUpTo, coeff_polyOne]
      by_cases hz : k = 0
      · subst hz
        simp [polyMulUpTo, hw]
      · rw [ih (by omega) (by omega)]
        simp [hz]
  exact hall w hw le_rfl

/-- The reduction of `x ^ w`. -/
lemma iterate_width (poly b : BitVec w) (hw : 0 < w) : (mulX poly)^[w] b = polyMul poly poly b := by
  apply (xlinear_iterate poly w).ext (xlinear_polyMul poly poly)
  obtain ⟨n, rfl⟩ : ∃ n, w = n + 1 := ⟨w - 1, by omega⟩
  rw [iterate_succ_apply', iterate_polyOne poly n (by omega), polyMul_polyOne, mulX]
  have hbit : (twoPow (n + 1) (n + 1 - 1 - n)).getLsbD 0 = true := by
    rw [getLsbD_twoPow]
    simp
  rw [hbit, if_pos rfl]
  have hzero : twoPow (n + 1) (n + 1 - 1 - n) >>> 1 = 0 := by
    apply eq_of_getLsbD_eq
    intro i hi
    have hne : ¬0 = 1 + i := by omega
    simp [getLsbD_ushiftRight, getLsbD_twoPow, hne]
  rw [hzero]
  exact zero_xor

lemma coeff_shift (a : BitVec w) (i : Nat) :
    coeff (a >>> 1) i = (decide (0 < i) && (decide (i < w) && coeff a (i - 1))) := by
  unfold coeff
  rw [getLsbD_ushiftRight]
  by_cases hi : i < w
  · by_cases hz : 0 < i
    · have h1 : 1 + (w - 1 - i) = w - 1 - (i - 1) := by omega
      simp [hi, hz, h1, show i - 1 < w by omega]
    · have h0 : i = 0 := by omega
      subst h0
      have h1 : a.getLsbD (1 + (w - 1)) = false := getLsbD_of_ge a _ (by omega)
      simp [h1]
  · simp [hi]

lemma polyMulUpTo_shift (poly a b : BitVec w) (k : Nat) (hk : k + 1 ≤ w) :
    polyMulUpTo poly (a >>> 1) b (k + 1) = mulX poly (polyMulUpTo poly a b k) := by
  induction k with
  | zero =>
    rw [polyMulUpTo, polyMulUpTo, polyMulUpTo, coeff_shift, mulX_zero]
    simp
  | succ k ih =>
    rw [polyMulUpTo, ih (by omega), coeff_shift, polyMulUpTo, mulX_xor,
      (xlinear_mulX poly).map_ite, ← iterate_succ_apply' (mulX poly) k b]
    simp [show k + 1 < w by omega]

/-- Multiplication by `x` may be done on either factor. -/
lemma polyMul_mulX_left (poly a b : BitVec w) (hw : 0 < w) :
    polyMul poly (mulX poly a) b = mulX poly (polyMul poly a b) := by
  obtain ⟨n, rfl⟩ : ∃ n, w = n + 1 := ⟨w - 1, by omega⟩
  have hshift := polyMulUpTo_shift poly a b n le_rfl
  have hlast : coeff a n = a.getLsbD 0 := by simp [coeff]
  have hsplit : mulX poly (polyMul poly a b) = polyMul poly (a >>> 1) b ^^^
      (if a.getLsbD 0 then polyMul poly poly b else 0) := by
    unfold polyMul
    rw [hshift, polyMulUpTo, mulX_xor, (xlinear_mulX poly).map_ite, hlast,
      ← iterate_succ_apply' (mulX poly) n b, iterate_width poly b hw]
    rfl
  rw [hsplit, mulX]
  cases a.getLsbD 0
  · simp
  · simp only [if_true]
    exact polyMulUpTo_xor_left poly (a >>> 1) poly b (n + 1)

/-- Multiplying by `x ^ n` is shifting `n` times. -/
theorem polyMul_iterate (poly b : BitVec w) (hw : 0 < w) (n : Nat) :
    polyMul poly ((mulX poly)^[n] (polyOne w)) b = (mulX poly)^[n] b := by
  induction n with
  | zero => exact polyOne_polyMul poly b hw
  | succ n ih =>
    rw [iterate_succ_apply', polyMul_mulX_left poly _ b hw, ih,
      iterate_succ_apply']

/-- If `x ^ m = x ^ n` then shifting `m` times is shifting `n` times. -/
theorem iterate_eq_of_polyOne (poly : BitVec w) {m n : Nat}
    (h : (mulX poly)^[m] (polyOne w) = (mulX poly)^[n] (polyOne w)) (b : BitVec w) :
    (mulX poly)^[m] b = (mulX poly)^[n] b :=
  (xlinear_iterate poly m).ext (xlinear_iterate poly n) h b

end Vesal.Library
