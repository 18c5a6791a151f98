import Mathlib.Tactic

/-!
# Carry-less products

Bit vectors with exclusive or as addition. An additive map is determined by its values at the
powers of two; the carry-less product is the additive map of two arguments that adds the
exponents of powers of two.
-/

namespace Vesal.Library

open BitVec

variable {m n k : Nat}

/-- A map that keeps exclusive or. -/
structure XorHom (f : BitVec m → BitVec k) : Prop where
  map_xor : ∀ a b, f (a ^^^ b) = f a ^^^ f b

namespace XorHom

variable {f g : BitVec m → BitVec k}

lemma map_zero (h : XorHom f) : f 0#m = 0#k := by
  have hz := h.map_xor 0#m 0#m
  rw [BitVec.xor_self, BitVec.xor_self] at hz
  exact hz

lemma comp {f' : BitVec k → BitVec n} (h' : XorHom f') (h : XorHom f) : XorHom fun a => f' (f a) :=
  ⟨fun a b => by rw [h.map_xor, h'.map_xor]⟩

lemma xor (hf : XorHom f) (hg : XorHom g) : XorHom fun a => f a ^^^ g a := by
  constructor
  intro a b
  rw [hf.map_xor, hg.map_xor, BitVec.xor_assoc, BitVec.xor_assoc, ← BitVec.xor_assoc (f b),
    ← BitVec.xor_assoc (g a), BitVec.xor_comm (f b)]

end XorHom

variable (a : BitVec m)

/-- The bits of a vector below `j`. -/
def lowBits (j : Nat) : BitVec m := (a.setWidth j).setWidth m

lemma lowBits_zero : lowBits a 0 = 0#m := by
  apply eq_of_getLsbD_eq
  simp [lowBits]

lemma lowBits_width : lowBits a m = a := by
  simp [lowBits]

lemma lowBits_succ (j : Nat) :
    lowBits a (j + 1) = lowBits a j ^^^ (if a.getLsbD j then twoPow m j else 0#m) := by
  apply eq_of_getLsbD_eq
  intro i hi
  simp only [lowBits, getLsbD_setWidth, getLsbD_xor]
  by_cases hij : i = j
  · subst hij
    cases ha : a.getLsbD i
    · simp
    · simp [hi]
  · have hne : ¬j = i := fun h => hij h.symm
    have hlt : i < j + 1 ↔ i < j := by omega
    cases a.getLsbD j
    · simp [hlt]
    · simp [hlt, hne]

/-- Additive maps agree as soon as they agree at the powers of two. -/
theorem XorHom.ext {f g : BitVec m → BitVec k} (hf : XorHom f) (hg : XorHom g)
    (h : ∀ i < m, f (twoPow m i) = g (twoPow m i)) (a : BitVec m) : f a = g a := by
  have hlow : ∀ j ≤ m, f (lowBits a j) = g (lowBits a j) := by
    intro j hj
    induction j with
    | zero => rw [lowBits_zero, hf.map_zero, hg.map_zero]
    | succ j ih =>
      rw [lowBits_succ, hf.map_xor, hg.map_xor, ih (by omega)]
      congr 1
      cases a.getLsbD j
      · exact hf.map_zero.trans hg.map_zero.symm
      · exact h j (by omega)
  have hall := hlow m (le_refl m)
  rwa [lowBits_width] at hall

/-- The same for additive maps of two arguments. -/
theorem XorHom.ext₂ {f g : BitVec m → BitVec n → BitVec k} (hfl : ∀ b, XorHom fun a => f a b)
    (hfr : ∀ a, XorHom (f a)) (hgl : ∀ b, XorHom fun a => g a b) (hgr : ∀ a, XorHom (g a))
    (h : ∀ i < m, ∀ j < n, f (twoPow m i) (twoPow n j) = g (twoPow m i) (twoPow n j))
    (a : BitVec m) (b : BitVec n) : f a b = g a b := by
  apply XorHom.ext (hfl b) (hgl b)
  intro i hi
  exact XorHom.ext (hfr _) (hgr _) (h i hi) b

lemma xorHom_setWidth (m k : Nat) : XorHom (setWidth k : BitVec m → BitVec k) :=
  ⟨fun _ _ => setWidth_xor⟩

lemma xorHom_shiftLeft (m j : Nat) : XorHom fun a : BitVec m => a <<< j :=
  ⟨fun _ _ => shiftLeft_xor_distrib _ _ _⟩

lemma xorHom_ushiftRight (m j : Nat) : XorHom fun a : BitVec m => a >>> j :=
  ⟨fun _ _ => ushiftRight_xor_distrib _ _ _⟩

lemma xorHom_and (c : BitVec m) : XorHom fun a : BitVec m => a &&& c := by
  constructor
  intro a b
  apply eq_of_getLsbD_eq
  intro i _
  simp only [getLsbD_and, getLsbD_xor]
  cases a.getLsbD i <;> cases b.getLsbD i <;> cases c.getLsbD i <;> rfl

lemma setWidth_twoPow {i : Nat} (hi : i < m) (k : Nat) : (twoPow m i).setWidth k = twoPow k i := by
  apply eq_of_getLsbD_eq
  intro j hj
  rw [getLsbD_setWidth, getLsbD_twoPow, getLsbD_twoPow, decide_eq_true hj, decide_eq_true hi]
  by_cases hij : i = j
  · subst hij
    simp [hj]
  · simp [hij]

lemma twoPow_of_le {i : Nat} (hi : m ≤ i) : twoPow m i = 0#m := by
  apply eq_of_toNat_eq
  exact toNat_twoPow_of_le hi

lemma shiftLeft_twoPow (m i j : Nat) : twoPow m i <<< j = twoPow m (i + j) := by
  rw [twoPow_eq, twoPow_eq, shiftLeft_add]

lemma ushiftRight_twoPow {i j : Nat} (hi : i < m) :
    twoPow m i >>> j = if j ≤ i then twoPow m (i - j) else 0#m := by
  apply eq_of_getLsbD_eq
  intro l hl
  rw [getLsbD_ushiftRight, getLsbD_twoPow, decide_eq_true hi, Bool.true_and]
  by_cases hij : j ≤ i
  · rw [if_pos hij, getLsbD_twoPow, decide_eq_true (show i - j < m by omega), Bool.true_and]
    simp only [decide_eq_decide]
    omega
  · rw [if_neg hij, getLsbD_zero, decide_eq_false_iff_not]
    omega

/-- The product with the bits of `b` below `j`, in `k` bits. -/
def clmulUpTo (k : Nat) (a : BitVec m) (b : BitVec n) : Nat → BitVec k
  | 0 => 0#k
  | j + 1 => clmulUpTo k a b j ^^^ (if b.getLsbD j then a.setWidth k <<< j else 0#k)

def clmul (k : Nat) (a : BitVec m) (b : BitVec n) : BitVec k := clmulUpTo k a b n

lemma xorHom_clmul_left (k : Nat) (b : BitVec n) : XorHom fun a : BitVec m => clmul k a b := by
  have hupTo : ∀ j, XorHom fun a : BitVec m => clmulUpTo k a b j := by
    intro j
    induction j with
    | zero => exact ⟨fun _ _ => (xor_zero).symm⟩
    | succ j ih =>
      apply ih.xor
      cases b.getLsbD j
      · exact ⟨fun _ _ => (xor_zero).symm⟩
      · exact (xorHom_shiftLeft k j).comp (xorHom_setWidth m k)
  exact hupTo n

lemma xorHom_clmul_right (k : Nat) (a : BitVec m) : XorHom fun b : BitVec n => clmul k a b := by
  have hupTo : ∀ j, XorHom fun b : BitVec n => clmulUpTo k a b j := by
    intro j
    induction j with
    | zero => exact ⟨fun _ _ => (xor_zero).symm⟩
    | succ j ih =>
      apply ih.xor
      constructor
      intro b b'
      rw [getLsbD_xor]
      cases b.getLsbD j <;> cases b'.getLsbD j <;> simp
  exact hupTo n

/-- Multiplying powers of two adds the exponents. -/
theorem clmul_twoPow (k : Nat) {i j : Nat} (hi : i < m) (hj : j < n) :
    clmul k (twoPow m i) (twoPow n j) = twoPow k (i + j) := by
  have hupTo : ∀ l ≤ n, clmulUpTo k (twoPow m i) (twoPow n j) l =
      if j < l then twoPow k (i + j) else 0#k := by
    intro l hl
    induction l with
    | zero => rfl
    | succ l ih =>
      rw [clmulUpTo, ih (by omega), getLsbD_twoPow, decide_eq_true hj, Bool.true_and, setWidth_twoPow hi]
      by_cases hjl : j = l
      · subst hjl
        rw [if_neg (lt_irrefl j), if_pos (by simp), if_pos (Nat.lt_succ_self j), zero_xor, shiftLeft_twoPow]
      · have hlt : j < l + 1 ↔ j < l := by omega
        simp [hjl, hlt]
  rw [clmul, hupTo n (le_refl n), if_pos hj]

end Vesal.Library
