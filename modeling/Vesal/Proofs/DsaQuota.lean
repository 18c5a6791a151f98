import Mathlib.Data.List.TakeWhile
import Vesal.DsaDispatcher

/-! # The quota of the work queues -/

namespace Vesal.Proofs

open List Function DsaDispatcher ScheduleStrategy Except

variable (s : List UInt8)

def IsNumberList : Prop := ∀ t ∈ s.splitOn comma, t ≠ [] ∧ ∀ c ∈ t, isdigit c = true

def quotaNumbers : List Nat := (s.splitOn comma).map digitsValue

/-- The tokens of a text when `t` was read before it. -/
def tokensFrom (t s : List UInt8) : List (List UInt8) := (s.splitOn comma).modifyHead (t ++ ·)

variable {t : List UInt8} {wqs : List WorkQueueInfo} {nodes : List Int}

lemma tokensFrom_nil_left : tokensFrom [] s = s.splitOn comma := by
  unfold tokensFrom
  cases s.splitOn comma with
  | nil => rfl
  | cons u us => rfl

lemma tokensFrom_nil (t : List UInt8) : tokensFrom t [] = [t] := by
  unfold tokensFrom
  rw [splitOn_nil, modifyHead_cons, append_nil]

lemma tokensFrom_comma (t s : List UInt8) : tokensFrom t (comma :: s) = t :: tokensFrom [] s := by
  rw [tokensFrom_nil_left]
  unfold tokensFrom splitOn
  rw [splitOnP_cons_eq_if_modifyHead, if_pos (beq_self_eq_true comma), modifyHead_cons, append_nil]

variable {c : UInt8} {wq : WorkQueueInfo} {w : Nat}

lemma tokensFrom_cons (hc : c ≠ comma) (t s : List UInt8) :
    tokensFrom t (c :: s) = tokensFrom (t ++ [c]) s := by
  unfold tokensFrom splitOn
  rw [splitOnP_cons_eq_if_modifyHead, if_neg (by simpa using hc), modifyHead_modifyHead]
  congr 1
  funext u
  simp

lemma exists_mem_tokensFrom (t s : List UInt8) : ∃ u, t ++ u ∈ tokensFrom t s := by
  obtain ⟨u, us, hsplit⟩ := exists_cons_of_ne_nil (splitOn_ne_nil comma s)
  refine ⟨u, ?_⟩
  unfold tokensFrom
  rw [hsplit]
  exact mem_cons_self

lemma ne_comma_of_isdigit (hc : isdigit c = true) : c ≠ comma := by
  rintro rfl
  exact absurd hc (by decide)

lemma validLoop_iff {b : Bool} (ht : ∀ c ∈ t, isdigit c = true) (hb : b = true ↔ t = []) :
    (validLoop s b = true ∧ (t ++ s).getLast?.any isdigit = true) ↔
      ∀ u ∈ tokensFrom t s, u ≠ [] ∧ ∀ c ∈ u, isdigit c = true := by
  induction s generalizing t b with
  | nil =>
    rw [tokensFrom_nil, append_nil, forall_mem_singleton]
    by_cases hnil : t = []
    · simp [hnil]
    · have hlast := ht _ (getLast_mem hnil)
      simp [validLoop, hnil, getLast?_eq_getLast_of_ne_nil hnil, hlast]
      exact ht
  | cons c s ih =>
    unfold validLoop
    by_cases hc : isdigit c = true
    · have hdigits : ∀ d ∈ t ++ [c], isdigit d = true := by
        rw [forall_mem_append, forall_mem_singleton]
        exact ⟨ht, hc⟩
      have happend : t ++ c :: s = (t ++ [c]) ++ s := by simp
      rw [if_pos hc, tokensFrom_cons (ne_comma_of_isdigit hc), happend]
      exact ih hdigits (by simp)
    · rw [if_neg hc]
      by_cases hcomma : c = comma
      · subst hcomma
        rw [if_pos rfl, tokensFrom_comma, forall_mem_cons]
        cases b with
        | true => simp [hb.mp rfl]
        | false =>
          have htne : t ≠ [] := fun hnil => Bool.false_ne_true (hb.mpr hnil)
          have hlast : (t ++ comma :: s).getLast?.any isdigit = ([] ++ s).getLast?.any isdigit := by
            cases s with
            | nil =>
              rw [getLast?_concat]
              rfl
            | cons d s =>
              rw [nil_append, append_cons, getLast?_append_of_ne_nil _ (cons_ne_nil d s)]
          rw [if_neg Bool.false_ne_true, hlast, ih (t := []) (by simp) (by simp)]
          simp [htne]
          exact fun _ => ht
      · -- The character stays in a token, which is then not one of digits.
        rw [if_neg hcomma, tokensFrom_cons hcomma]
        obtain ⟨u, hu⟩ := exists_mem_tokensFrom (t ++ [c]) s
        constructor
        · rintro ⟨hfalse, -⟩
          exact absurd hfalse Bool.false_ne_true
        · intro hall
          exact absurd ((hall _ hu).2 c (by simp)) hc

lemma isValidNumberList_iff : isValidNumberList s = true ↔ IsNumberList s := by
  cases s with
  | nil => simp [isValidNumberList, IsNumberList]
  | cons front s =>
    have hfrom : IsNumberList (front :: s) ↔
        ∀ u ∈ tokensFrom [] (front :: s), u ≠ [] ∧ ∀ c ∈ u, isdigit c = true := by
      rw [tokensFrom_nil_left]
      rfl
    obtain ⟨back, hback⟩ : ∃ back, (front :: s).getLast? = some back := ⟨_, getLast?_cons⟩
    unfold isValidNumberList
    rw [hfrom, head?_cons, hback]
    by_cases hf : isdigit front = true
    · -- The first character is a digit, which starts the first token.
      have hloop := validLoop_iff (t := [front]) s (b := false) (by simpa using hf) (by simp)
      rw [singleton_append, hback] at hloop
      rw [tokensFrom_cons (ne_comma_of_isdigit hf), nil_append, ← hloop, validLoop, if_pos hf]
      simp [hf, and_comm]
    · have hfalse : ¬ ∀ u ∈ tokensFrom [] (front :: s), u ≠ [] ∧ ∀ c ∈ u, isdigit c = true := by
        intro hall
        by_cases hcomma : front = comma
        · rw [hcomma, tokensFrom_comma] at hall
          exact (hall [] mem_cons_self).1 rfl
        · rw [tokensFrom_cons hcomma] at hall
          obtain ⟨u, hu⟩ := exists_mem_tokensFrom ([] ++ [front]) s
          exact hf ((hall _ hu).2 front (by simp))
      simp [hf, hfalse]

lemma stoull_of_digits (hne : t ≠ []) (ht : ∀ c ∈ t, isdigit c = true) :
    stoull t = if digitsValue t < 2 ^ 64 then .ok (digitsValue t) else .error .uncaught := by
  have hall : t.takeWhile isdigit = t := takeWhile_eq_self_iff.mpr ht
  unfold stoull
  simp only [hall, hne, if_false]
  by_cases hlt : digitsValue t < 2 ^ 64
  · rw [if_pos hlt, if_neg (by omega)]
  · rw [if_neg hlt, if_pos (by omega)]

lemma parseLoop_eq (v : List Nat)
    (hall : ∀ u ∈ tokensFrom t s, u ≠ [] ∧ ∀ c ∈ u, isdigit c = true) :
    parseLoop s t v = if ∀ u ∈ tokensFrom t s, digitsValue u < 2 ^ 64
      then .ok (v ++ (tokensFrom t s).map digitsValue) else .error .uncaught := by
  induction s generalizing t v with
  | nil =>
    rw [tokensFrom_nil, forall_mem_singleton] at hall
    rw [tokensFrom_nil, parseLoop, if_neg hall.1, stoull_of_digits hall.1 hall.2]
    simp only [forall_mem_singleton]
    by_cases hlt : digitsValue t < 2 ^ 64
    · rw [if_pos hlt, if_pos hlt]
      rfl
    · rw [if_neg hlt, if_neg hlt]
  | cons c s ih =>
    unfold parseLoop
    by_cases hcomma : c = comma
    · subst hcomma
      rw [tokensFrom_comma, forall_mem_cons] at hall
      rw [tokensFrom_comma, if_pos rfl, if_neg hall.1.1, stoull_of_digits hall.1.1 hall.1.2]
      simp only [forall_mem_cons]
      by_cases hlt : digitsValue t < 2 ^ 64
      · rw [if_pos hlt]
        dsimp only
        rw [ih _ hall.2, map_cons, append_assoc, singleton_append]
        simp only [hlt, true_and]
      · rw [if_neg hlt, if_neg fun hfits => hlt hfits.1]
    · rw [tokensFrom_cons hcomma] at hall ⊢
      rw [if_neg hcomma]
      exact ih v hall

lemma parse_of_isNumberList {s : List UInt8} (h : IsNumberList s) :
    parse s = if ∀ q ∈ quotaNumbers s, q < 2 ^ 64 then .ok (quotaNumbers s) else .error .uncaught := by
  have hloop := parseLoop_eq (t := []) s [] (by rw [tokensFrom_nil_left]; exact h)
  rw [tokensFrom_nil_left] at hloop
  unfold parse quotaNumbers
  rw [hloop]
  simp only [forall_mem_map, nil_append]

def NodeKnown (node : Int) : Prop := 0 ≤ node ∧ node < kMaxNumaNum

def ChargedAt (wqs : List WorkQueueInfo) (w : Nat) : Prop := ∃ wq, wqs[w]? = some wq ∧ 0 < wq.capacity

def ChoosesCharged (wqs : List WorkQueueInfo) (strategy : ScheduleStrategy) : Prop :=
  ∀ scheduleHint tlsCounter, ∃ choice, strategy.getNext scheduleHint tlsCounter = .ok choice ∧
    ∀ w, choice = some w → ChargedAt wqs w

def ChargedFrom (wqs : List WorkQueueInfo) (i w : Nat) : Prop := ∃ k, w = i + k ∧ ChargedAt wqs k

lemma chargedFrom_cons_self (wqs : List WorkQueueInfo) (hcap : 0 < wq.capacity) (i : Nat) :
    ChargedFrom (wq :: wqs) i i := ⟨0, rfl, wq, rfl, hcap⟩

lemma ChargedFrom.cons {i : Nat} (h : ChargedFrom wqs (i + 1) w) (wq : WorkQueueInfo) :
    ChargedFrom (wq :: wqs) i w := by
  obtain ⟨k, hk, info, hinfo, hcap⟩ := h
  exact ⟨k + 1, by omega, info, hinfo, hcap⟩

lemma chargedFrom_zero (h : ChargedFrom wqs 0 w) : ChargedAt wqs w := by
  obtain ⟨k, hk, hcharged⟩ := h
  rw [hk, Nat.zero_add]
  exact hcharged

lemma atCounter_of_ne_nil {wqList : List Nat} (h : wqList ≠ []) (tlsCounter : Nat) :
    ∃ w ∈ wqList, atCounter wqList tlsCounter = .ok (some w) := by
  have hpos : 0 < wqList.length := length_pos_iff.mpr h
  have hlt : tlsCounter % wqList.length < wqList.length := Nat.mod_lt _ hpos
  refine ⟨wqList.get ⟨_, hlt⟩, get_mem _ _, ?_⟩
  unfold atCounter
  rw [if_neg (by omega), getElem?_eq_getElem hlt]
  rfl

lemma numaLoop_ok (wqs : List WorkQueueInfo) (i : Nat) (byNuma : Nat → List Nat)
    (h : ∀ wq ∈ wqs, 0 < wq.capacity → NodeKnown wq.numaNode) :
    ∃ byNuma', numaLoop wqs i byNuma = .ok byNuma' ∧
      ∀ n w, w ∈ byNuma' n → w ∈ byNuma n ∨ ChargedFrom wqs i w := by
  induction wqs generalizing i byNuma with
  | nil => exact ⟨byNuma, rfl, fun _ _ hw => Or.inl hw⟩
  | cons wq wqs ih =>
    have hrest := fun u hu => h u (mem_cons_of_mem wq hu)
    unfold numaLoop
    by_cases hcap : 0 < wq.capacity
    · obtain ⟨hlow, hhigh⟩ := h wq mem_cons_self hcap
      rw [if_pos hcap, if_neg (not_not.mpr hhigh), if_neg (not_lt.mpr hlow)]
      obtain ⟨byNuma', heq, hmem⟩ := ih (i + 1) _ hrest
      refine ⟨byNuma', heq, ?_⟩
      intro n w hw
      cases hmem n w hw with
      | inl hold =>
        by_cases hn : n = wq.numaNode.toNat
        · rw [hn, update_self, mem_append, mem_singleton] at hold
          cases hold with
          | inl hold => exact Or.inl (hn ▸ hold)
          | inr heq => exact Or.inr (heq ▸ chargedFrom_cons_self wqs hcap i)
        · rw [update_of_ne hn] at hold
          exact Or.inl hold
      | inr hfrom => exact Or.inr (hfrom.cons wq)
    · rw [if_neg hcap]
      obtain ⟨byNuma', heq, hmem⟩ := ih (i + 1) byNuma hrest
      refine ⟨byNuma', heq, ?_⟩
      intro n w hw
      cases hmem n w hw with
      | inl hold => exact Or.inl hold
      | inr hfrom => exact Or.inr (hfrom.cons wq)

lemma numaLoop_error (wqs : List WorkQueueInfo) (i : Nat) (byNuma : Nat → List Nat)
    (h : ¬ ∀ wq ∈ wqs, 0 < wq.capacity → NodeKnown wq.numaNode) :
    ∃ fault, numaLoop wqs i byNuma = .error fault := by
  induction wqs generalizing i byNuma with
  | nil => exact absurd (by simp) h
  | cons wq wqs ih =>
    unfold numaLoop
    by_cases hcap : 0 < wq.capacity
    · rw [if_pos hcap]
      by_cases hhigh : wq.numaNode < kMaxNumaNum
      · rw [if_neg (not_not.mpr hhigh)]
        by_cases hlow : wq.numaNode < 0
        · exact ⟨_, if_pos hlow⟩
        · rw [if_neg hlow]
          apply ih
          intro hrest
          apply h
          rw [forall_mem_cons]
          exact ⟨fun _ => ⟨not_lt.mp hlow, hhigh⟩, hrest⟩
      · exact ⟨_, if_pos hhigh⟩
    · rw [if_neg hcap]
      apply ih
      intro hrest
      apply h
      rw [forall_mem_cons]
      exact ⟨fun hpos => absurd hpos hcap, hrest⟩

lemma le_dsaIndexMax_fold (wqs : List WorkQueueInfo) (m : Nat) :
    m ≤ wqs.foldl (fun m wq => if 0 < wq.capacity ∧ m < wq.dsaIndex then wq.dsaIndex else m) m ∧
      ∀ wq ∈ wqs, 0 < wq.capacity →
        wq.dsaIndex ≤ wqs.foldl (fun m wq => if 0 < wq.capacity ∧ m < wq.dsaIndex then wq.dsaIndex else m) m := by
  induction wqs generalizing m with
  | nil => simp
  | cons wq wqs ih =>
    rw [foldl_cons, forall_mem_cons]
    by_cases hbigger : 0 < wq.capacity ∧ m < wq.dsaIndex
    · obtain ⟨hle, hall⟩ := ih wq.dsaIndex
      rw [if_pos hbigger]
      exact ⟨by omega, fun _ => hle, hall⟩
    · obtain ⟨hle, hall⟩ := ih m
      rw [if_neg hbigger]
      refine ⟨hle, fun hcap => ?_, hall⟩
      have : ¬ m < wq.dsaIndex := fun hlt => hbigger ⟨hcap, hlt⟩
      omega

lemma deviceLoop_ok (wqs : List WorkQueueInfo) (i : Nat) (byIndex : List (Option Nat))
    (hindex : ∀ k wq, wqs[k]? = some wq → wq.dsaIndex = i + k)
    (hlen : ∀ wq ∈ wqs, 0 < wq.capacity → wq.dsaIndex < byIndex.length)
    (hfree : ∀ j, i ≤ j → ∀ slot, byIndex[j]? = some slot → slot = none) :
    ∃ byIndex', deviceLoop wqs i byIndex = .ok byIndex' ∧
      ∀ j w : Nat, byIndex'[j]? = some (some w) → byIndex[j]? = some (some w) ∨ ChargedFrom wqs i w := by
  induction wqs generalizing i byIndex with
  | nil => exact ⟨byIndex, rfl, fun _ _ hw => Or.inl hw⟩
  | cons wq wqs ih =>
    have hindex' : ∀ k u, wqs[k]? = some u → u.dsaIndex = i + 1 + k := by
      intro k u hu
      rw [hindex (k + 1) u hu]
      omega
    have hi : wq.dsaIndex = i := hindex 0 wq rfl
    unfold deviceLoop
    by_cases hcap : 0 < wq.capacity
    · have hlt : i < byIndex.length := hi ▸ hlen wq mem_cons_self hcap
      have hslot : byIndex[i]? = some none := by
        rw [getElem?_eq_getElem hlt]
        congr 1
        exact hfree i le_rfl _ (getElem?_eq_getElem hlt)
      rw [if_pos hcap, hi, hslot]
      dsimp only
      obtain ⟨byIndex', heq, hmem⟩ := ih (i + 1) (byIndex.set i (some i)) hindex'
        (by rw [length_set]; exact fun u hu => hlen u (mem_cons_of_mem wq hu))
        (by
          intro j hj slot hslot
          rw [getElem?_set_ne (by omega)] at hslot
          exact hfree j (by omega) slot hslot)
      refine ⟨byIndex', heq, ?_⟩
      intro j w hw
      cases hmem j w hw with
      | inl hset =>
        by_cases hj : i = j
        · rw [← hj, getElem?_set_self hlt, Option.some.injEq, Option.some.injEq] at hset
          exact Or.inr (hset ▸ chargedFrom_cons_self wqs hcap i)
        · rw [getElem?_set_ne hj] at hset
          exact Or.inl hset
      | inr hfrom => exact Or.inr (hfrom.cons wq)
    · rw [if_neg hcap]
      obtain ⟨byIndex', heq, hmem⟩ := ih (i + 1) byIndex hindex'
        (fun u hu => hlen u (mem_cons_of_mem wq hu)) (fun j hj => hfree j (by omega))
      refine ⟨byIndex', heq, ?_⟩
      intro j w hw
      cases hmem j w hw with
      | inl hold => exact Or.inl hold
      | inr hfrom => exact Or.inr (hfrom.cons wq)

lemma mem_roundRobinLoop (wqs : List WorkQueueInfo) (i : Nat) (wqList : List Nat) (w : Nat) :
    w ∈ roundRobinLoop wqs i wqList ↔ w ∈ wqList ∨ ChargedFrom wqs i w := by
  induction wqs generalizing i wqList with
  | nil => simp [roundRobinLoop, ChargedFrom, ChargedAt]
  | cons wq wqs ih =>
    unfold roundRobinLoop
    rw [ih]
    have hsplit : ChargedFrom (wq :: wqs) i w ↔ w = i ∧ 0 < wq.capacity ∨ ChargedFrom wqs (i + 1) w := by
      constructor
      · rintro ⟨k, hk, info, hinfo, hcap⟩
        cases k with
        | zero =>
          rw [getElem?_cons_zero, Option.some.injEq] at hinfo
          exact Or.inl ⟨hk, hinfo ▸ hcap⟩
        | succ k =>
          rw [getElem?_cons_succ] at hinfo
          exact Or.inr ⟨k, by omega, info, hinfo, hcap⟩
      · rintro (⟨rfl, hcap⟩ | hfrom)
        · exact chargedFrom_cons_self wqs hcap w
        · exact hfrom.cons wq
    rw [hsplit]
    by_cases hcap : 0 < wq.capacity
    · simp only [hcap, if_true, mem_append, mem_singleton, and_true]
      tauto
    · simp only [hcap, if_false, and_false, false_or]

lemma choosesCharged_numaAware {byNuma : Nat → List Nat} (h : ∀ n w, w ∈ byNuma n → ChargedAt wqs w) :
    ChoosesCharged wqs (.numaAware byNuma) := by
  intro scheduleHint tlsCounter
  dsimp only [getNext]
  by_cases hhint : kMaxNumaNum ≤ (scheduleHint : Int)
  · exact ⟨none, if_pos hhint, by simp⟩
  · by_cases hempty : byNuma scheduleHint = []
    · exact ⟨none, by rw [if_neg hhint, if_pos hempty], by simp⟩
    · obtain ⟨w, hw, hnext⟩ := atCounter_of_ne_nil hempty tlsCounter
      refine ⟨some w, by rw [if_neg hhint, if_neg hempty, hnext], ?_⟩
      intro w' hw'
      exact Option.some.inj hw' ▸ h scheduleHint w hw

lemma choosesCharged_deviceAware {byIndex : List (Option Nat)}
    (h : ∀ j w : Nat, byIndex[j]? = some (some w) → ChargedAt wqs w) : ChoosesCharged wqs (.deviceAware byIndex) := by
  intro scheduleHint tlsCounter
  dsimp only [getNext]
  by_cases hhint : byIndex.length ≤ scheduleHint
  · exact ⟨none, if_pos hhint, by simp⟩
  · have hget := getElem?_eq_getElem (not_le.mp hhint)
    refine ⟨byIndex[scheduleHint], by rw [if_neg hhint, hget], ?_⟩
    intro w hw
    rw [hw] at hget
    exact h scheduleHint w hget

lemma choosesCharged_roundRobin (wqs : List WorkQueueInfo) :
    ChoosesCharged wqs (.roundRobin (roundRobinLoop wqs 0 [])) ↔ ∃ w, ChargedAt wqs w := by
  have hmem : ∀ w, w ∈ roundRobinLoop wqs 0 [] ↔ ChargedFrom wqs 0 w := by
    intro w
    rw [mem_roundRobinLoop]
    simp
  constructor
  · intro hchooses
    obtain ⟨choice, hnext, _⟩ := hchooses 0 0
    by_contra hnone
    have hnil : roundRobinLoop wqs 0 [] = [] := by
      apply eq_nil_iff_forall_not_mem.mpr
      intro w hw
      exact hnone ⟨w, chargedFrom_zero ((hmem w).mp hw)⟩
    rw [hnil] at hnext
    exact absurd hnext (by simp [getNext, atCounter])
  · rintro ⟨w, hcharged⟩ scheduleHint tlsCounter
    have hne : roundRobinLoop wqs 0 [] ≠ [] :=
      ne_nil_of_mem ((hmem w).mpr ⟨w, (Nat.zero_add w).symm, hcharged⟩)
    obtain ⟨w', hw', hnext⟩ := atCounter_of_ne_nil hne tlsCounter
    refine ⟨some w', hnext, ?_⟩
    intro u hu
    exact Option.some.inj hu ▸ chargedFrom_zero ((hmem w').mp hw')

lemma make_spec (hintType : DataFlowScheduleHintType) (hne : wqs ≠ [])
    (hindex : ∀ (k : Nat) (wq : WorkQueueInfo), wqs[k]? = some wq → wq.dsaIndex = k) :
    ((hintType = .kNumaAware → ∀ wq ∈ wqs, 0 < wq.capacity → NodeKnown wq.numaNode) →
      ∃ strategy, ScheduleStrategy.make hintType wqs = .ok strategy ∧
        (ChoosesCharged wqs strategy ↔
          (hintType ≠ .kNumaAware → hintType ≠ .kDeviceAware → ∃ w, ChargedAt wqs w))) ∧
      (¬ (hintType = .kNumaAware → ∀ wq ∈ wqs, 0 < wq.capacity → NodeKnown wq.numaNode) →
        ∃ fault, ScheduleStrategy.make hintType wqs = .error fault) := by
  unfold ScheduleStrategy.make
  rw [if_neg hne]
  cases hintType with
  | kNumaAware =>
    constructor
    · intro hnodes
      obtain ⟨byNuma, heq, hmem⟩ := numaLoop_ok wqs 0 (fun _ => []) (hnodes rfl)
      refine ⟨.numaAware byNuma, by dsimp only; rw [heq], ?_⟩
      refine iff_of_true (choosesCharged_numaAware fun n w hw => ?_) (fun hne => absurd rfl hne)
      exact chargedFrom_zero ((hmem n w hw).resolve_left (by simp))
    · intro hnodes
      obtain ⟨fault, heq⟩ := numaLoop_error wqs 0 (fun _ => []) fun hall => hnodes fun _ => hall
      exact ⟨fault, by dsimp only; rw [heq]⟩
  | kDeviceAware =>
    refine ⟨fun _ => ?_, fun hnot => absurd (fun hne => absurd hne (by simp)) hnot⟩
    obtain ⟨byIndex, heq, hmem⟩ := deviceLoop_ok wqs 0 (replicate (dsaIndexMax wqs + 1) none)
      (by simpa using hindex)
      (by
        intro wq hwq hcap
        have := (le_dsaIndexMax_fold wqs 0).2 wq hwq hcap
        rw [length_replicate]
        unfold dsaIndexMax
        omega)
      (by
        intro j _ slot hslot
        exact eq_of_mem_replicate (mem_of_getElem? hslot))
    refine ⟨.deviceAware byIndex, by dsimp only; rw [heq], ?_⟩
    refine iff_of_true (choosesCharged_deviceAware fun j w hw => ?_) (fun _ hne => absurd rfl hne)
    apply chargedFrom_zero
    refine (hmem j w hw).resolve_left ?_
    intro hold
    exact absurd (eq_of_mem_replicate (mem_of_getElem? hold)) (by simp)
  | kRoundRobin =>
    refine ⟨fun _ => ⟨_, rfl, ?_⟩, fun hnot => absurd (fun hne => absurd hne (by simp)) hnot⟩
    rw [choosesCharged_roundRobin]
    simp
  | kNum =>
    refine ⟨fun _ => ⟨_, rfl, ?_⟩, fun hnot => absurd (fun hne => absurd hne (by simp)) hnot⟩
    rw [choosesCharged_roundRobin]
    simp

def defaultCapacities (nodes : List Int) : List Nat := kWorkQueueCapacity :: List.replicate (nodes.length - 1) 0

lemma defaultQuota_eq (hne : nodes ≠ []) :
    defaultQuota (obtained nodes) =
      setQuota (obtained nodes) (defaultCapacities nodes) := by
  obtain ⟨node, nodes, rfl⟩ := exists_cons_of_ne_nil hne
  have hzip : ∀ (nodes : List Int) (i : Nat),
      ((nodes.zipIdx i).map fun node => (⟨node.1, node.2, 0, 0⟩ : WorkQueueInfo)).map
          (fun wq => { wq with capacity := 0 }) =
        List.zipWith (fun wq capacity => { wq with capacity := capacity })
          ((nodes.zipIdx i).map fun node => (⟨node.1, node.2, 0, 0⟩ : WorkQueueInfo))
          (replicate nodes.length 0) := by
    intro nodes
    induction nodes with
    | nil => intro i; rfl
    | cons node nodes ih =>
      intro i
      rw [zipIdx_cons, map_cons, map_cons, length_cons, replicate_succ, zipWith_cons_cons,
        ih]
  unfold obtained setQuota defaultCapacities
  rw [zipIdx_cons, map_cons, defaultQuota, zipWith_cons_cons, hzip]
  rfl

variable {caps : List Nat}

lemma getElem?_setQuota {k : Nat} :
    (setQuota (obtained nodes) caps)[k]? = some wq ↔
      ∃ node cap, nodes[k]? = some node ∧ caps[k]? = some cap ∧ wq = ⟨node, k, cap, 0⟩ := by
  unfold setQuota obtained
  rw [getElem?_zipWith_eq_some]
  constructor
  · rintro ⟨info, cap, hinfo, hcap, rfl⟩
    rw [getElem?_map, Option.map_eq_some_iff] at hinfo
    obtain ⟨⟨node, j⟩, hnode, rfl⟩ := hinfo
    rw [getElem?_zipIdx, Option.map_eq_some_iff] at hnode
    obtain ⟨node', hnode', heq⟩ := hnode
    rw [Prod.mk.injEq] at heq
    obtain ⟨rfl, rfl⟩ := heq
    exact ⟨_, cap, hnode', hcap, by simp⟩
  · rintro ⟨node, cap, hnode, hcap, rfl⟩
    refine ⟨⟨node, k, 0, 0⟩, cap, ?_, hcap, rfl⟩
    rw [getElem?_map, getElem?_zipIdx, hnode]
    simp

def NodesKnown (caps : List Nat) (nodes : List Int) : Prop := ∀ p ∈ caps.zip nodes, 0 < p.1 → NodeKnown p.2

lemma setQuota_facts (hne : nodes ≠ []) (hlen : caps.length = nodes.length) :
    setQuota (obtained nodes) caps ≠ [] ∧
      (∀ (k : Nat) (wq : WorkQueueInfo),
        (setQuota (obtained nodes) caps)[k]? = some wq → wq.dsaIndex = k) ∧
      ((∀ wq ∈ setQuota (obtained nodes) caps, 0 < wq.capacity → NodeKnown wq.numaNode) ↔
        NodesKnown caps nodes) ∧
      ((∃ w, ChargedAt (setQuota (obtained nodes) caps) w) ↔ ∃ cap ∈ caps, 0 < cap) := by
  refine ⟨?_, ?_, ?_, ?_⟩
  · intro hnil
    have hlength : (setQuota (obtained nodes) caps).length = nodes.length := by
      simp [setQuota, obtained, hlen]
    rw [hnil] at hlength
    exact hne (List.length_eq_zero_iff.mp hlength.symm)
  · intro k wq hwq
    obtain ⟨node, cap, _, _, rfl⟩ := getElem?_setQuota.mp hwq
    rfl
  · constructor
    · intro hall p hp hpos
      obtain ⟨k, hk⟩ := mem_iff_getElem?.mp hp
      obtain ⟨hcap, hnode⟩ := List.getElem?_zip_eq_some.mp hk
      exact hall ⟨p.2, k, p.1, 0⟩ (mem_of_getElem? (getElem?_setQuota.mpr ⟨p.2, p.1, hnode, hcap, rfl⟩)) hpos
    · intro hall wq hwq hpos
      obtain ⟨k, hk⟩ := mem_iff_getElem?.mp hwq
      obtain ⟨node, cap, hnode, hcap, rfl⟩ := getElem?_setQuota.mp hk
      exact hall (cap, node) (mem_of_getElem? (List.getElem?_zip_eq_some.mpr ⟨hcap, hnode⟩)) hpos
  · constructor
    · rintro ⟨w, wq, hwq, hpos⟩
      obtain ⟨node, cap, _, hcap, rfl⟩ := getElem?_setQuota.mp hwq
      exact ⟨cap, mem_of_getElem? hcap, hpos⟩
    · rintro ⟨cap, hmem, hpos⟩
      obtain ⟨k, hk⟩ := mem_iff_getElem?.mp hmem
      have hlt : k < nodes.length := hlen ▸ (List.getElem?_eq_some_iff.mp hk).1
      exact ⟨k, _, getElem?_setQuota.mpr ⟨_, cap, getElem?_eq_getElem hlt, hk, rfl⟩, hpos⟩

/-- What the configuration by a quota string should be: `Init` returns, with an error after all
work queues were given back, or with `kOk`; for a string that is not empty it is `kOk` exactly where
the string is a list of one number for each work queue, none of them more than the hardware has; and
then every `Submit` chooses a work queue with a capacity or returns an error. -/
def QuotaSafe (dsaQuota : List UInt8) (nodes : List Int) (hintType : DataFlowScheduleHintType) : Prop :=
  ∃ status d, DsaDispatcher.initDispatcher dsaQuota nodes hintType = .ok (status, d) ∧
    (status ≠ .kOk → d.init = false ∧ d.returned = List.range nodes.length) ∧
    (dsaQuota ≠ [] → (status = .kOk ↔ IsNumberList dsaQuota ∧ (quotaNumbers dsaQuota).length = nodes.length ∧
      ∀ q ∈ quotaNumbers dsaQuota, q < 2 ^ 64 ∧ q ≤ kWorkQueueCapacity)) ∧
    (status = .kOk → ∀ scheduleHint tlsCounter, ∃ choice, d.choose scheduleHint tlsCounter = .ok choice ∧
      ∀ w, choice = some w → ∃ wq, d.wqList[w]? = some wq ∧ wq.capacity ≠ 0)

/-- When it is safe: the default needs a known NUMA node for the first work queue; a number list
needs numbers that fit, and where there is one for each work queue, numbers that the hardware has,
for the round robin one that is not zero, and known NUMA nodes for the others. -/
def QuotaFits (dsaQuota : List UInt8) (nodes : List Int) (hintType : DataFlowScheduleHintType) : Prop :=
  (dsaQuota = [] → hintType = .kNumaAware → ∀ node ∈ nodes.head?, NodeKnown node) ∧
    (IsNumberList dsaQuota → (∀ q ∈ quotaNumbers dsaQuota, q < 2 ^ 64) ∧
      ((quotaNumbers dsaQuota).length = nodes.length →
        (∀ q ∈ quotaNumbers dsaQuota, q ≤ kWorkQueueCapacity) ∧
        (hintType ≠ .kNumaAware → hintType ≠ .kDeviceAware → ∃ q ∈ quotaNumbers dsaQuota, 0 < q) ∧
        (hintType = .kNumaAware → NodesKnown (quotaNumbers dsaQuota) nodes)))

lemma withStrategy_spec (hne : nodes ≠ []) (hlen : caps.length = nodes.length) (hintType : DataFlowScheduleHintType) :
    ((hintType = .kNumaAware → NodesKnown caps nodes) →
      ∃ d, DsaDispatcher.withStrategy hintType (DsaDispatcher.setQuota (DsaDispatcher.obtained nodes) caps) =
          .ok (.kOk, d) ∧
        ((∀ scheduleHint tlsCounter, ∃ choice, d.choose scheduleHint tlsCounter = .ok choice ∧
            ∀ w, choice = some w → ∃ wq, d.wqList[w]? = some wq ∧ wq.capacity ≠ 0) ↔
          (hintType ≠ .kNumaAware → hintType ≠ .kDeviceAware → ∃ cap ∈ caps, 0 < cap))) ∧
      (¬ (hintType = .kNumaAware → NodesKnown caps nodes) →
        ∃ fault, DsaDispatcher.withStrategy hintType (DsaDispatcher.setQuota (DsaDispatcher.obtained nodes) caps) =
          .error fault) := by
  obtain ⟨hwqs, hindex, hknown, hcharged⟩ := setQuota_facts hne hlen
  obtain ⟨hmake, hfault⟩ := make_spec hintType hwqs hindex
  rw [hknown] at hmake hfault
  unfold DsaDispatcher.withStrategy
  constructor
  · intro hnodes
    obtain ⟨strategy, heq, hchooses⟩ := hmake hnodes
    refine ⟨⟨_, some strategy, true, []⟩, by rw [heq], ?_⟩
    rw [hcharged] at hchooses
    rw [← hchooses]
    unfold ChoosesCharged ChargedAt DsaDispatcher.choose
    simp only [Nat.pos_iff_ne_zero]
  · intro hnodes
    obtain ⟨fault, heq⟩ := hfault hnodes
    exact ⟨fault, by rw [heq]⟩

lemma returned_cleanUp (nodes : List Int) :
    (cleanUp ⟨obtained nodes, none, true, []⟩).returned = range nodes.length := by
  unfold cleanUp obtained
  rw [nil_append, map_map]
  apply ext_getElem?
  intro k
  rw [getElem?_map, getElem?_zipIdx]
  by_cases hk : k < nodes.length
  · rw [getElem?_range hk, getElem?_eq_getElem hk]
    simp
  · rw [getElem?_eq_none (by omega), getElem?_eq_none (by simp; omega)]
    rfl

lemma nodesKnown_default (hne : nodes ≠ []) :
    NodesKnown (defaultCapacities nodes) nodes ↔ ∀ node ∈ nodes.head?, NodeKnown node := by
  obtain ⟨node, nodes, rfl⟩ := exists_cons_of_ne_nil hne
  unfold NodesKnown defaultCapacities
  rw [zip_cons_cons, forall_mem_cons]
  constructor
  · intro hall node' hnode'
    rw [head?_cons, Option.mem_some_iff] at hnode'
    have hpos : 0 < kWorkQueueCapacity := by decide
    exact hnode' ▸ hall.1 hpos
  · intro hall
    refine ⟨fun _ => hall node (by simp), ?_⟩
    intro p hp hpos
    have hzero := eq_of_mem_replicate (of_mem_zip hp).1
    omega

/-- The configuration by a quota string is safe exactly where the string and the NUMA nodes fit. -/
theorem quota_safe_iff_fits (dsaQuota : List UInt8) {nodes : List Int} (hne : nodes ≠ [])
    (hintType : DataFlowScheduleHintType) : QuotaSafe dsaQuota nodes hintType ↔ QuotaFits dsaQuota nodes hintType := by
  have hobtained : DsaDispatcher.obtained nodes ≠ [] := by
    unfold DsaDispatcher.obtained
    simpa using hne
  have hlength : (DsaDispatcher.obtained nodes).length = nodes.length := by
    simp [DsaDispatcher.obtained]
  unfold QuotaSafe QuotaFits DsaDispatcher.initDispatcher
  simp only [hobtained, if_false]
  by_cases hempty : dsaQuota = []
  · -- The default: the first work queue has all the capacity.
    have hnot : ¬ IsNumberList dsaQuota := by
      rw [hempty, ← isValidNumberList_iff]
      exact Bool.false_ne_true
    have hlen : (defaultCapacities nodes).length = nodes.length := by
      have hpos := List.length_pos_iff.mpr hne
      simp [defaultCapacities]
      omega
    obtain ⟨hok, hfault⟩ := withStrategy_spec hne hlen hintType
    rw [nodesKnown_default hne] at hok hfault
    simp only [hempty, if_true, defaultQuota_eq hne, ne_eq, not_true_eq_false, IsEmpty.forall_iff, true_and,
      forall_const]
    rw [hempty] at hnot
    simp only [hnot, IsEmpty.forall_iff, and_true]
    constructor
    · rintro ⟨status, d, heq, _⟩
      by_contra hnodes
      obtain ⟨fault, hfault⟩ := hfault hnodes
      rw [hfault] at heq
      exact absurd heq (by simp)
    · intro hnodes
      obtain ⟨d, heq, hchooses⟩ := hok hnodes
      refine ⟨.kOk, d, heq, by simp, fun _ => hchooses.mpr ?_⟩
      exact fun _ _ => ⟨kWorkQueueCapacity, by simp [defaultCapacities], by decide⟩
  · simp only [hempty, if_false, IsEmpty.forall_iff, true_and, ne_eq, not_false_eq_true, forall_const]
    by_cases hlist : IsNumberList dsaQuota
    · have hvalid := (isValidNumberList_iff dsaQuota).mpr hlist
      simp only [hvalid, Bool.not_true, Bool.false_eq_true, if_false, hlist, true_and, forall_const]
      rw [parse_of_isNumberList hlist]
      by_cases hfits : ∀ q ∈ quotaNumbers dsaQuota, q < 2 ^ 64
      · rw [if_pos hfits]
        dsimp only
        rw [hlength]
        by_cases hlen : (quotaNumbers dsaQuota).length = nodes.length
        · rw [if_neg (not_not.mpr hlen)]
          obtain ⟨hok, hfault⟩ := withStrategy_spec hne hlen hintType
          constructor
          · rintro ⟨status, d, heq, _, hstatus, hsubmit⟩
            refine ⟨hfits, fun _ => ?_⟩
            by_cases hnodes : hintType = .kNumaAware → NodesKnown (quotaNumbers dsaQuota) nodes
            · obtain ⟨d', heq', hchooses⟩ := hok hnodes
              rw [heq'] at heq
              obtain ⟨rfl, rfl⟩ := Prod.mk.inj (ok.inj heq)
              exact ⟨fun q hq => ((hstatus.mp rfl).2 q hq).2, hchooses.mp (hsubmit rfl), hnodes⟩
            · obtain ⟨fault, heq'⟩ := hfault hnodes
              rw [heq'] at heq
              exact absurd heq (by simp)
          · rintro ⟨_, hall⟩
            obtain ⟨hsmall, hsome, hnodes⟩ := hall hlen
            obtain ⟨d, heq, hchooses⟩ := hok hnodes
            refine ⟨.kOk, d, heq, by simp, ?_, fun _ => hchooses.mpr hsome⟩
            exact iff_of_true rfl ⟨hlen, fun q hq => ⟨hfits q hq, hsmall q hq⟩⟩
        · rw [if_pos hlen]
          refine iff_of_true ⟨_, _, rfl, fun _ => ⟨rfl, returned_cleanUp nodes⟩, ?_, by simp⟩
            ⟨hfits, fun h => absurd h hlen⟩
          exact iff_of_false (by simp) fun h => hlen h.1
      · rw [if_neg hfits]
        refine iff_of_false ?_ fun h => hfits h.1
        rintro ⟨status, d, heq, _⟩
        exact absurd heq (by simp)
    · have hvalid : isValidNumberList dsaQuota = false := by
        rw [← Bool.not_eq_true, isValidNumberList_iff]
        exact hlist
      simp only [hvalid, Bool.not_false, if_true, hlist, IsEmpty.forall_iff, false_and, iff_false, iff_true]
      exact ⟨_, _, rfl, fun _ => ⟨rfl, returned_cleanUp nodes⟩, by simp, by simp⟩

/-- Two work queues of nodes 0 and 1 with the quotas `64,64`, chosen by the NUMA node. -/
theorem quota_safe_iff_fits_twoQueues :
    QuotaFits [54, 52, 44, 54, 52] [0, 1] .kNumaAware ∧ QuotaSafe [54, 52, 44, 54, 52] [0, 1] .kNumaAware := by
  have hnumbers : quotaNumbers [54, 52, 44, 54, 52] = [64, 64] := by decide
  have hfits : QuotaFits [54, 52, 44, 54, 52] [0, 1] .kNumaAware := by
    unfold QuotaFits
    rw [hnumbers]
    exact ⟨by simp, fun _ => ⟨by simp, fun _ => ⟨by simp [kWorkQueueCapacity], by simp,
      fun _ => by simp [NodesKnown, NodeKnown, kMaxNumaNum]⟩⟩⟩
  exact ⟨hfits, (quota_safe_iff_fits _ (List.cons_ne_nil 0 [1]) _).mpr hfits⟩

/-- The quota `0` of a single work queue is accepted, and the first submission with the round robin
divides by the empty list's length; `18446744073709551616` is thrown out of range and not caught;
a work queue without a NUMA node indexes before the table. -/
theorem quota_zero_divides_by_zero :
    (∃ d, DsaDispatcher.initDispatcher [48] [0] .kRoundRobin = .ok (.kOk, d) ∧
      d.choose 0 0 = .error .divisionByZero) ∧
      (∃ fault, DsaDispatcher.initDispatcher
        [49, 56, 52, 52, 54, 55, 52, 52, 48, 55, 51, 55, 48, 57, 53, 53, 49, 54, 49, 54] [0] .kRoundRobin =
          .error fault) ∧
      (∃ fault, DsaDispatcher.initDispatcher [] [-1] .kNumaAware = .error fault) ∧
      ¬ QuotaSafe [48] [0] .kRoundRobin := by
  refine ⟨⟨_, rfl, rfl⟩, ⟨_, rfl⟩, ⟨_, rfl⟩, ?_⟩
  rintro ⟨status, d, heq, -, -, hchoose⟩
  obtain ⟨rfl, rfl⟩ := Prod.mk.inj (ok.inj heq)
  obtain ⟨choice, hchoice, -⟩ := hchoose rfl 0 0
  have hfault : error DsaFault.divisionByZero = ok choice := hchoice
  exact absurd hfault (by simp)

end Vesal.Proofs
