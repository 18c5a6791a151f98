import Mathlib.Data.List.TakeWhile
import Vesal.QatHa

/-! # When the fallback is triggered -/

namespace Vesal.Proofs

open List

lemma dropWhile_eq_filter {α : Type} {r : α → α → Prop} {p : α → Bool} {xs : List α} (hxs : xs.Pairwise r)
    (hp : ∀ x y, r x y → p y = true → p x = true) : xs.dropWhile p = xs.filter fun x => !p x := by
  induction xs with
  | nil => rfl
  | cons x xs ih =>
    rw [pairwise_cons] at hxs
    by_cases hx : p x = true
    · rw [dropWhile_cons_of_pos hx, filter_cons_of_neg (by simp [hx])]
      exact ih hxs.2
    · rw [dropWhile_cons_of_neg hx]
      symm
      apply filter_eq_self.mpr
      intro y hy
      rw [Bool.not_eq_true']
      cases mem_cons.mp hy with
      | inl heq =>
        rw [heq]
        exact Bool.eq_false_of_not_eq_true hx
      | inr hmem =>
        apply Bool.eq_false_of_not_eq_true
        intro hpy
        exact hx (hp x y (hxs.1 y hmem) hpy)

def storedErrors (w : HaWindow) (n : Nat) (calls : List (StatusCode × Nat)) : List Nat :=
  calls.foldl (fun errorTs call => (w.shouldFallback n call.2 call.1 errorTs).2) []

def fallbackAnswer (w : HaWindow) (n : Nat) (calls : List (StatusCode × Nat)) (status : StatusCode) (now : Nat) : Bool :=
  (w.shouldFallback n now status (storedErrors w n calls)).1

/-- Whether an error is recorded: one that accumulates, and that is the first one or comes late
enough after the last one that was recorded. -/
def isRecorded (w : HaWindow) (recorded : List Nat) (status : StatusCode) (now : Nat) : Bool :=
  judgeHaErrorLevel status == .kAccumulate &&
    recorded.getLast?.all fun last => decide (w.minCountingTimeWindowUs < w.durationToUs (now - last))

def recordedErrors (w : HaWindow) (n : Nat) (calls : List (StatusCode × Nat)) : List Nat :=
  (calls.foldl
    (fun (past : List (StatusCode × Nat) × List Nat) call =>
      (past.1 ++ [call],
        if fallbackAnswer w n past.1 call.1 call.2 then []
        else if isRecorded w past.2 call.1 call.2 then past.2 ++ [call.2] else past.2))
    ([], [])).2

def errorsInWindow (w : HaWindow) (recorded : List Nat) (now : Nat) : Nat :=
  recorded.countP fun ts => decide (w.durationToUs (now - ts) ≤ w.slidingWindowUs)

section

variable (w : HaWindow) (n : Nat)

lemma storedErrors_append (calls : List (StatusCode × Nat)) (call : StatusCode × Nat) :
    storedErrors w n (calls ++ [call]) = (w.shouldFallback n call.2 call.1 (storedErrors w n calls)).2 := by
  unfold storedErrors
  rw [foldl_append]
  rfl

lemma recordedErrors_append (calls : List (StatusCode × Nat)) (call : StatusCode × Nat) :
    recordedErrors w n (calls ++ [call]) =
      if fallbackAnswer w n calls call.1 call.2 then []
      else if isRecorded w (recordedErrors w n calls) call.1 call.2 then recordedErrors w n calls ++ [call.2]
      else recordedErrors w n calls := by
  have hpast : ∀ (calls : List (StatusCode × Nat)) (past : List (StatusCode × Nat) × List Nat),
      (calls.foldl
        (fun (past : List (StatusCode × Nat) × List Nat) call =>
          (past.1 ++ [call],
            if fallbackAnswer w n past.1 call.1 call.2 then []
            else if isRecorded w past.2 call.1 call.2 then past.2 ++ [call.2] else past.2)) past).1 =
        past.1 ++ calls := by
    intro calls
    induction calls with
    | nil => simp
    | cons c calls ih =>
      intro past
      rw [foldl_cons, ih]
      simp
  unfold recordedErrors
  rw [foldl_append, foldl_cons, foldl_nil, hpast]
  rfl

/-- The stored errors are the last of the recorded ones, those before them are out of the window
for good, and they are too few to trigger. -/
structure StoredInv (recorded stored : List Nat) (now : Nat) : Prop where
  split : ∃ pruned, recorded = pruned ++ stored ∧ (stored = [] → pruned = []) ∧
    ∀ ts ∈ pruned, w.slidingWindowUs < w.durationToUs (now - ts)
  sorted : recorded.Pairwise (· ≤ ·)
  times : ∀ ts ∈ recorded, ts ≤ now
  few : stored.length < n

variable {w n}

lemma storedInv_nil (hn : 0 < n) (now : Nat) : StoredInv w n [] [] now :=
  ⟨⟨[], rfl, fun _ => rfl, by simp⟩, Pairwise.nil, by simp, hn⟩

variable {recorded stored : List Nat} {status : StatusCode} {now : Nat}

lemma shouldFallback_accumulate (hlevel : judgeHaErrorLevel status = .kAccumulate) (now : Nat)
    (hfew : stored.length < n) :
    w.shouldFallback n now status stored =
      if w.needRecord stored now = true then
        if (w.clearExpiredErrors (stored ++ [now]) now).length < n then
          (false, w.clearExpiredErrors (stored ++ [now]) now)
        else (true, [])
      else (false, stored) := by
  unfold HaWindow.shouldFallback HaWindow.recordErrorAndCheckIsSafe
  rw [hlevel]
  by_cases hrecord : w.needRecord stored now = true
  · by_cases hlen : (w.clearExpiredErrors (stored ++ [now]) now).length < n
    · simp [hrecord, hlen]
    · simp [hrecord, hlen]
  · simp [hrecord, hfew]

namespace StoredInv

section

variable (h : StoredInv w n recorded stored now)
include h

lemma mono (hmono : Monotone w.durationToUs) {now' : Nat} (hle : now ≤ now') : StoredInv w n recorded stored now' := by
  obtain ⟨pruned, hsplit, hempty, hold⟩ := h.split
  refine ⟨⟨pruned, hsplit, hempty, fun ts hts => ?_⟩, h.sorted, fun ts hts => (h.times ts hts).trans hle, h.few⟩
  exact (hold ts hts).trans_le (hmono (Nat.sub_le_sub_right hle ts))

lemma needRecord (hlevel : judgeHaErrorLevel status = .kAccumulate) :
    isRecorded w recorded status now = w.needRecord stored now := by
  have hlast : recorded.getLast? = stored.getLast? := by
    obtain ⟨pruned, hsplit, hempty, _⟩ := h.split
    by_cases hnil : stored = []
    · rw [hsplit, hempty hnil, nil_append]
    · rw [hsplit, getLast?_append_of_ne_nil _ hnil]
  unfold isRecorded HaWindow.needRecord
  rw [hlast, hlevel]
  cases stored.getLast? with
  | none => rfl
  | some last => simp

lemma sorted_append : (recorded ++ [now]).Pairwise (· ≤ ·) := by
  rw [pairwise_append]
  refine ⟨h.sorted, pairwise_singleton _ _, fun ts hts last hlast => ?_⟩
  rw [mem_singleton.mp hlast]
  exact h.times ts hts

lemma errorsInWindow (hmono : Monotone w.durationToUs) :
    errorsInWindow w (recorded ++ [now]) now = (w.clearExpiredErrors (stored ++ [now]) now).length := by
  obtain ⟨pruned, hsplit, _, hold⟩ := h.split
  have hsorted := h.sorted_append
  rw [hsplit, append_assoc, pairwise_append] at hsorted
  have hdown : ∀ x y : Nat, x ≤ y → decide (w.slidingWindowUs < w.durationToUs (now - y)) = true →
      decide (w.slidingWindowUs < w.durationToUs (now - x)) = true := by
    intro x y hxy hy
    rw [decide_eq_true_eq] at hy ⊢
    exact lt_of_lt_of_le hy (hmono (Nat.sub_le_sub_left hxy now))
  have hpruned : pruned.countP (fun ts => decide (w.durationToUs (now - ts) ≤ w.slidingWindowUs)) = 0 := by
    rw [countP_eq_zero]
    intro ts hts
    have := hold ts hts
    rw [decide_eq_true_eq]
    omega
  unfold Proofs.errorsInWindow HaWindow.clearExpiredErrors
  rw [dropWhile_eq_filter hsorted.2.1 hdown, hsplit, append_assoc, countP_append, hpruned, Nat.zero_add,
    countP_eq_length_filter]
  congr 1
  apply filter_congr
  intro ts _
  rw [← decide_not]
  exact decide_eq_decide.mpr not_lt.symm

lemma answer (hmono : Monotone w.durationToUs) :
    (w.shouldFallback n now status stored).1 = true ↔
      judgeHaErrorLevel status = .kImmediately ∨
        isRecorded w recorded status now = true ∧ n ≤ Proofs.errorsInWindow w (recorded ++ [now]) now := by
  cases hlevel : judgeHaErrorLevel status with
  | kNotHandle => simp [HaWindow.shouldFallback, isRecorded, hlevel]
  | kImmediately => simp [HaWindow.shouldFallback, hlevel]
  | kAccumulate =>
    rw [shouldFallback_accumulate hlevel now h.few, h.needRecord hlevel, h.errorsInWindow hmono]
    by_cases hrecord : w.needRecord stored now = true
    · by_cases hlen : (w.clearExpiredErrors (stored ++ [now]) now).length < n
      · simp [hrecord, hlen]
      · simp only [hrecord, hlen, if_true, if_false, true_and]
        simp
        omega
    · simp [hrecord]

lemma record (hzero : w.durationToUs 0 = 0) (hlen : (w.clearExpiredErrors (stored ++ [now]) now).length < n) :
    StoredInv w n (recorded ++ [now]) (w.clearExpiredErrors (stored ++ [now]) now) now := by
  obtain ⟨pruned, hsplit, _, hold⟩ := h.split
  have hlast : now ∈ w.clearExpiredErrors (stored ++ [now]) now := by
    unfold HaWindow.clearExpiredErrors
    rw [dropWhile_append]
    by_cases hall : (List.dropWhile (fun ts => decide (w.slidingWindowUs < w.durationToUs (now - ts)))
        stored).isEmpty = true
    · rw [if_pos hall]
      simp [hzero]
    · rw [if_neg hall]
      simp
  refine ⟨⟨pruned ++ (stored ++ [now]).takeWhile
    fun ts => decide (w.slidingWindowUs < w.durationToUs (now - ts)), ?_, ?_, ?_⟩, h.sorted_append, ?_, hlen⟩
  · unfold HaWindow.clearExpiredErrors
    rw [hsplit, append_assoc, append_assoc, takeWhile_append_dropWhile]
  · intro hnil
    rw [hnil] at hlast
    exact absurd hlast not_mem_nil
  · intro ts hts
    rcases mem_append.mp hts with hpruned | htaken
    · exact hold ts hpruned
    · have hlt := mem_takeWhile_imp htaken
      rwa [decide_eq_true_eq] at hlt
  · intro ts hts
    rcases mem_append.mp hts with hts | hts
    · exact h.times ts hts
    · exact (mem_singleton.mp hts).le

lemma step (hzero : w.durationToUs 0 = 0) (hn : 0 < n) (status : StatusCode) :
    StoredInv w n
      (if (w.shouldFallback n now status stored).1 then []
        else if isRecorded w recorded status now then recorded ++ [now] else recorded)
      (w.shouldFallback n now status stored).2 now := by
  cases hlevel : judgeHaErrorLevel status with
  | kNotHandle => simpa [HaWindow.shouldFallback, isRecorded, hlevel] using h
  | kImmediately => simpa [HaWindow.shouldFallback, hlevel] using storedInv_nil hn now
  | kAccumulate =>
    rw [shouldFallback_accumulate hlevel now h.few, h.needRecord hlevel]
    by_cases hrecord : w.needRecord stored now = true
    · by_cases hlen : (w.clearExpiredErrors (stored ++ [now]) now).length < n
      · simpa [hrecord, hlen] using h.record hzero hlen
      · simpa [hrecord, hlen] using storedInv_nil hn now
    · simpa [hrecord] using h

end

end StoredInv

lemma storedInv_of_sorted (hmono : Monotone w.durationToUs) (hzero : w.durationToUs 0 = 0) (hn : 0 < n)
    (calls : List (StatusCode × Nat)) (hsorted : calls.Pairwise fun c c' => c.2 ≤ c'.2)
    (hnow : ∀ call ∈ calls, call.2 ≤ now) : StoredInv w n (recordedErrors w n calls) (storedErrors w n calls) now := by
  induction calls using List.reverseRecOn generalizing now with
  | nil => exact storedInv_nil hn now
  | append_singleton calls call ih =>
    rw [pairwise_append] at hsorted
    have hinv := ih hsorted.1 fun c hc => hsorted.2.2 c hc call (mem_singleton_self call)
    rw [recordedErrors_append, storedErrors_append]
    exact (hinv.step hzero hn call.1).mono hmono (hnow call (by simp))

end

lemma storedErrors_skip (w : HaWindow) (n : Nat) (before after : List (StatusCode × Nat)) {skipped : StatusCode × Nat}
    (hlevel : judgeHaErrorLevel skipped.1 = .kNotHandle) :
    storedErrors w n (before ++ skipped :: after) = storedErrors w n (before ++ after) := by
  unfold storedErrors
  rw [foldl_append, foldl_append, foldl_cons]
  congr 1
  unfold HaWindow.shouldFallback
  rw [hlevel]

/-- For calls at times that do not decrease, `ShouldFallback` answers true exactly when the error is
of the immediate level, or is recorded and at least `n` recorded errors since the last fallback,
itself included, are in the window. Statuses that are not handled change no later answer. -/
theorem fallback_when_window_full (w : HaWindow) (hmono : Monotone w.durationToUs) (hzero : w.durationToUs 0 = 0)
    {n : Nat} (hn : 0 < n) :
    (∀ calls status now, (calls ++ [(status, now)]).Pairwise (fun c c' => c.2 ≤ c'.2) →
      (fallbackAnswer w n calls status now = true ↔
        judgeHaErrorLevel status = .kImmediately ∨
          isRecorded w (recordedErrors w n calls) status now = true ∧
            n ≤ errorsInWindow w (recordedErrors w n calls ++ [now]) now)) ∧
      ∀ before skipped after status now, judgeHaErrorLevel skipped.1 = .kNotHandle →
        fallbackAnswer w n (before ++ skipped :: after) status now = fallbackAnswer w n (before ++ after) status now := by
  constructor
  · intro calls status now hsorted
    rw [List.pairwise_append] at hsorted
    refine (storedInv_of_sorted hmono hzero hn calls hsorted.1 ?_).answer hmono
    exact fun call hcall => hsorted.2.2 call hcall (status, now) (List.mem_singleton_self _)
  · intro before skipped after status now hlevel
    unfold fallbackAnswer
    rw [storedErrors_skip w n before after hlevel]

/-- Times in microseconds, two errors within 100: the second one triggers, and a not handled status
between them does not matter. -/
theorem fallback_when_window_full_twoErrors :
    fallbackAnswer ⟨5, 100, id⟩ 2 [(.kTimeout, 10), (.kOk, 20)] .kTimeout 30 = true ∧
      fallbackAnswer ⟨5, 100, id⟩ 2 [(.kTimeout, 10), (.kOk, 20)] .kTimeout 30 =
        fallbackAnswer ⟨5, 100, id⟩ 2 [(.kTimeout, 10)] .kTimeout 30 := by
  have hpolicy := fallback_when_window_full ⟨5, 100, id⟩ monotone_id rfl (n := 2) (by decide)
  constructor
  · rw [hpolicy.1 _ _ _ (by decide)]
    decide
  · exact hpolicy.2 [(.kTimeout, 10)] (.kOk, 20) [] .kTimeout 30 rfl

end Vesal.Proofs
