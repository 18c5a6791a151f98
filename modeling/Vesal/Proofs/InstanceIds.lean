import Vesal.Proofs.RingQueue
import Vesal.QatUnit

/-! # The ids of the instances -/

namespace Vesal.Proofs

open List QatUnitManager Nat

def decimalName (p : List Char) (n : Nat) : List Char := p ++ toDigits 10 n

/-- The instances with the two names get different ids, and no selection by an id fits both. -/
def ToldApart (name₁ name₂ : List Char) : Prop :=
  ∀ info₁ info₂ attr, info₁.instName = name₁ → info₂.instName = name₂ → info₁.busAddress = info₂.busAddress →
    isModelSupported (info₁.partName.takeWhile (· != ' ')) = true →
    isModelSupported (info₂.partName.takeWhile (· != ' ')) = true →
    ∃ attr₁ attr₂, queryInformation .success info₁ attr = some (.kOk, attr₁) ∧
      queryInformation .success info₂ attr = some (.kOk, attr₂) ∧ attr₁.instId ≠ attr₂.instId ∧
      ∀ selection : QatUnitSelection, 0 ≤ selection.instId →
        ¬ (fitSelection selection attr₁.unit = true ∧ fitSelection selection attr₂.unit = true)

lemma le_ofDigitChars (cs : List Char) (num : Nat) : num ≤ ofDigitChars 10 cs num := by
  induction cs generalizing num with
  | nil => exact Nat.le_refl _
  | cons c cs ih =>
    rw [ofDigitChars_cons]
    have hnext := ih (10 * num + (c.toNat - '0'.toNat))
    omega

lemma intAtTheEndLoop_digits {cs rest : List Char} {num m : Nat} (hcs : ∀ c ∈ cs, c.isDigit = true)
    (hrest : ∀ c ∈ rest.head?, c.isDigit = false) (hnum : num < 2 ^ 31) :
    intAtTheEndLoop (cs ++ rest) num = some m ↔ ofDigitChars 10 cs num = m ∧ m < 2 ^ 31 := by
  induction cs generalizing num with
  | nil =>
    have hstop : intAtTheEndLoop rest num = some num := by
      cases rest with
      | nil => rfl
      | cons c rest => rw [intAtTheEndLoop, if_neg (by simpa using hrest c rfl)]
    rw [nil_append, hstop, ofDigitChars_nil, Option.some.injEq]
    exact ⟨fun h => ⟨h, h ▸ hnum⟩, fun h => h.1⟩
  | cons c cs ih =>
    rw [cons_append, intAtTheEndLoop, if_pos (hcs c mem_cons_self), ofDigitChars_cons, Nat.mul_comm num]
    by_cases hlt : 10 * num + (c.toNat - '0'.toNat) < 2 ^ 31
    · rw [if_pos hlt]
      exact ih (fun c' hc' => hcs c' (mem_cons_of_mem c hc')) hlt
    · -- the number only grows from here on
      rw [if_neg hlt]
      have hle := le_ofDigitChars cs (10 * num + (c.toNat - '0'.toNat))
      exact ⟨nofun, fun h => absurd h.2 (by omega)⟩

lemma ofDigitChars_inj {cs cs' : List Char} {i i' : Nat} (hcs : ∀ c ∈ cs, c.isDigit = true)
    (hcs' : ∀ c ∈ cs', c.isDigit = true) (hlen : cs.length = cs'.length)
    (h : ofDigitChars 10 cs i = ofDigitChars 10 cs' i') : i = i' ∧ cs = cs' := by
  induction cs generalizing cs' i i' with
  | nil =>
    obtain rfl := length_eq_zero_iff.mp hlen.symm
    exact ⟨h, rfl⟩
  | cons c cs ih =>
    cases cs' with
    | nil => cases hlen
    | cons c' cs' =>
      rw [ofDigitChars_cons, ofDigitChars_cons] at h
      obtain ⟨hnum, rfl⟩ := ih (fun a ha => hcs a (mem_cons_of_mem c ha))
        (fun a ha => hcs' a (mem_cons_of_mem c' ha)) (Nat.succ.inj hlen) h
      have hc := Char.isDigit_iff_toNat.mp (hcs c mem_cons_self)
      have hc' := Char.isDigit_iff_toNat.mp (hcs' c' mem_cons_self)
      have hzero : '0'.toNat = 48 := rfl
      have hnine : '9'.toNat = 57 := rfl
      have hchar : c.toNat = c'.toNat := by omega
      exact ⟨by omega, by rw [Char.toNat_inj.mp hchar]⟩

lemma intAtTheEnd_eq {s : List Char} (hpos : 0 < s.length) (hlen : s.length ≤ 2 ^ 31) :
    intAtTheEnd s = intAtTheEndLoop s.reverse 0 := by
  have hlast : (s.length + 2 ^ 64 - 1) % 2 ^ 64 = s.length - 1 := by omega
  have hindex : (((s.length - 1 : Nat) : Int) + 1).toNat = s.length := by omega
  rw [intAtTheEnd, hlast, toInt32_of_lt (by omega), hindex, take_length]

/-- `IntAtTheEnd` reads the digits of the number backwards. -/
lemma intAtTheEnd_decimalName {p : List Char} (hp : ∀ c ∈ p.getLast?, c.isDigit = false) {n : Nat}
    (hlen : (decimalName p n).length ≤ 2 ^ 31) (m : Nat) :
    intAtTheEnd (decimalName p n) = some m ↔ ofDigitChars 10 (toDigits 10 n).reverse 0 = m ∧ m < 2 ^ 31 := by
  have hpos : 0 < (decimalName p n).length := by
    rw [decimalName, length_append]
    exact Nat.add_pos_right _ length_toDigits_pos
  rw [intAtTheEnd_eq hpos hlen, decimalName, reverse_append]
  refine intAtTheEndLoop_digits ?_ ?_ (by decide)
  · intro c hc
    exact isDigit_of_mem_toDigits (by decide) (by decide) (mem_reverse.mp hc)
  · rw [head?_reverse]
    exact hp

lemma intAtTheEnd_recovers_iff {p : List Char} (hp : ∀ c ∈ p.getLast?, c.isDigit = false) {n : Nat} (hn : n < 2 ^ 31)
    (hlen : (decimalName p n).length ≤ 2 ^ 31) :
    intAtTheEnd (decimalName p n) = some n ↔ (toDigits 10 n).reverse = toDigits 10 n := by
  have hvalue : ofDigitChars 10 (toDigits 10 n) 0 = n := ofDigitChars_toDigits (by decide) (by decide)
  rw [intAtTheEnd_decimalName hp hlen]
  constructor
  · rintro ⟨hreverse, -⟩
    have hdigit : ∀ c ∈ toDigits 10 n, c.isDigit = true := fun c => isDigit_of_mem_toDigits (by decide) (by decide)
    exact (ofDigitChars_inj (fun c hc => hdigit c (mem_reverse.mp hc)) hdigit length_reverse
      (hreverse.trans hvalue.symm)).2
  · intro hpal
    exact ⟨by rw [hpal, hvalue], hn⟩

lemma toldApart_of_ids {name₁ name₂ : List Char} {n₁ n₂ : Nat} (h₁ : intAtTheEnd name₁ = some n₁)
    (h₂ : intAtTheEnd name₂ = some n₂) (hne : n₁ ≠ n₂) : ToldApart name₁ name₂ := by
  rintro info₁ info₂ attr rfl rfl - hmodel₁ hmodel₂
  have hquery : ∀ (info : CpaInstanceInfo2) n, intAtTheEnd info.instName = some n →
      isModelSupported (info.partName.takeWhile (· != ' ')) = true →
      ∃ attr', queryInformation .success info attr = some (.kOk, attr') ∧ attr'.instId = n := by
    intro info n hid hmodel
    unfold queryInformation
    dsimp only
    rw [if_neg (not_not.mpr rfl), hmodel, hid]
    exact ⟨_, rfl, rfl⟩
  obtain ⟨attr₁, hattr₁, rfl⟩ := hquery info₁ n₁ h₁ hmodel₁
  obtain ⟨attr₂, hattr₂, rfl⟩ := hquery info₂ n₂ h₂ hmodel₂
  refine ⟨attr₁, attr₂, hattr₁, hattr₂, hne, ?_⟩
  rintro selection hsel ⟨hfit₁, hfit₂⟩
  have hid : ∀ attr : QatUnitAttr, fitSelection selection attr.unit = true → selection.instId = attr.instId := by
    intro attr hfit
    unfold fitSelection at hfit
    rw [Bool.and_eq_true, Bool.or_eq_true, decide_eq_true_eq, beq_iff_eq] at hfit
    exact hfit.2.resolve_left (by omega)
  exact hne (Int.ofNat.inj ((hid attr₁ hfit₁).symm.trans (hid attr₂ hfit₂)))

/-- The ids are the numbers in the names, and tell the instances apart, exactly for numbers that
read the same in both directions. -/
theorem instance_ids_iff (p : List Char) (n₁ n₂ : Nat) (hp : ∀ c ∈ p.getLast?, c.isDigit = false)
    (hn₁ : n₁ < 2 ^ 31) (hn₂ : n₂ < 2 ^ 31) (hlen₁ : (decimalName p n₁).length ≤ 2 ^ 31)
    (hlen₂ : (decimalName p n₂).length ≤ 2 ^ 31) :
    (intAtTheEnd (decimalName p n₁) = some n₁ ∧ intAtTheEnd (decimalName p n₂) = some n₂ ∧
      (n₁ ≠ n₂ → ToldApart (decimalName p n₁) (decimalName p n₂))) ↔
    (toDigits 10 n₁).reverse = toDigits 10 n₁ ∧ (toDigits 10 n₂).reverse = toDigits 10 n₂ := by
  have hfirst := intAtTheEnd_recovers_iff hp hn₁ hlen₁
  have hsecond := intAtTheEnd_recovers_iff hp hn₂ hlen₂
  constructor
  · rintro ⟨h₁, h₂, -⟩
    exact ⟨hfirst.mp h₁, hsecond.mp h₂⟩
  · rintro ⟨hpal₁, hpal₂⟩
    have h₁ := hfirst.mpr hpal₁
    have h₂ := hsecond.mpr hpal₂
    exact ⟨h₁, h₂, toldApart_of_ids h₁ h₂⟩

theorem instance_ids_eleven_two : ToldApart (decimalName ['D', 'c'] 11) (decimalName ['D', 'c'] 2) :=
  ((instance_ids_iff ['D', 'c'] 11 2 (by simp) (by decide) (by decide) (by decide) (by decide)).mpr
    (by decide)).2.2 (by decide)

/-- `Dc12` gets the id 21, and `Dc1` and `Dc10` are both what a selection of the id 1 gives. -/
theorem instance_ids_reversed : intAtTheEnd (decimalName ['D', 'c'] 12) = some 21 ∧
    ¬ ToldApart (decimalName ['D', 'c'] 1) (decimalName ['D', 'c'] 10) := by
  refine ⟨?_, ?_⟩
  · rw [intAtTheEnd_eq (by decide) (by decide)]
    decide
  · intro happart
    obtain ⟨attr₁, attr₂, h₁, h₂, hne, -⟩ := happart ⟨"4xxx".toList, _, 0, false, 0, false⟩
      ⟨"4xxx".toList, _, 0, false, 0, false⟩ ⟨[], [], 0, 0, 0, 0, false, false⟩ rfl rfl rfl (by decide) (by decide)
    unfold queryInformation at h₁ h₂
    cases h₁
    cases h₂
    exact hne rfl

end Vesal.Proofs
