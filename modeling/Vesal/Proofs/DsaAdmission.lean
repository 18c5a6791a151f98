import Vesal.DsaDispatcher
import Vesal.Library.EventRuns

/-! # Admission to the work queues -/

namespace Vesal.Proofs

open Library List DispatcherRun Option Bool Except

lemma countP_set_add {α : Type} (p : α → Bool) {l : List α} {i : Nat} {x : α} (h : l[i]? = some x) (a : α) :
    (l.set i a).countP p + (if p x then 1 else 0) = l.countP p + if p a then 1 else 0 := by
  induction l generalizing i with
  | nil => exact absurd h (by simp)
  | cons y l ih =>
    cases i with
    | zero =>
      rw [getElem?_cons_zero, some.injEq] at h
      rw [set_cons_zero, countP_cons, countP_cons, h]
      omega
    | succ i =>
      have := ih h
      rw [set_cons_succ, countP_cons, countP_cons]
      omega

def betweenOn (q : Nat) : SubmitPoint → Bool
  | .idle => false
  | .added wq _ | .rejected wq => wq == q

def willAccept (q capacity : Nat) : SubmitPoint → Bool
  | .added wq result => wq == q && decide (result < capacity)
  | .idle | .rejected _ => false

def outstandingOn (run : DispatcherRun) (q : Nat) : Nat := run.accepted.countP fun entry => entry.2 == q

structure AdmissionInv (run : DispatcherRun) : Prop where
  size : ∀ q info, run.wqList[q]? = some info → info.size = outstandingOn run q + run.threads.countP (betweenOn q)
  room : ∀ q info, run.wqList[q]? = some info →
    outstandingOn run q + run.threads.countP (willAccept q info.capacity) ≤ info.capacity

lemma willAccept_le_betweenOn (q capacity : Nat) (threads : List SubmitPoint) :
    threads.countP (willAccept q capacity) ≤ threads.countP (betweenOn q) := by
  apply countP_mono_left
  intro point _ h
  cases point with
  | idle => exact absurd h false_ne_true
  | rejected wq => exact absurd h false_ne_true
  | added wq result =>
    unfold willAccept at h
    rw [and_eq_true] at h
    exact h.1

lemma exists_of_changeSize (run : DispatcherRun) (wq : Nat) (f : Nat → Nat) {q : Nat} {info' : WorkQueueInfo}
    (h : (run.changeSize wq f).wqList[q]? = some info') :
    ∃ info, run.wqList[q]? = some info ∧ info'.capacity = info.capacity ∧
      info'.size = if wq = q then f info.size else info.size := by
  unfold changeSize at h
  rw [getElem?_modify] at h
  obtain ⟨info, hinfo, rfl⟩ := map_eq_some_iff.mp h
  refine ⟨info, hinfo, ?_⟩
  by_cases hq : wq = q
  · simp [hq]
  · simp [hq]

variable {run : DispatcherRun} {thread wq : Nat}

variable {info : WorkQueueInfo} {result : Nat}

section

variable (hinv : AdmissionInv run)
include hinv

lemma AdmissionInv.fetchAdd (hthread : run.threads[thread]? = some .idle) (hwq : run.wqList[wq]? = some info) :
    AdmissionInv { run.changeSize wq (· + 1) with threads := run.threads.set thread (.added wq info.size) } := by
  constructor
  · intro q info' hq
    obtain ⟨old, hold, _, hnew⟩ := exists_of_changeSize run wq (· + 1) hq
    have hsize := hinv.size q old hold
    have hcount := countP_set_add (betweenOn q) hthread (.added wq info.size)
    simp only [outstandingOn, changeSize, betweenOn] at hsize hcount ⊢
    rw [hnew]
    by_cases hwqq : wq = q
    · simp [hwqq] at hcount ⊢
      omega
    · simp [hwqq] at hcount ⊢
      omega
  · intro q info' hq
    obtain ⟨old, hold, hcapacity, _⟩ := exists_of_changeSize run wq (· + 1) hq
    have hroom := hinv.room q old hold
    have hcount := countP_set_add (willAccept q old.capacity) hthread (.added wq info.size)
    rw [hcapacity]
    simp only [outstandingOn, changeSize] at hroom ⊢
    -- The size that was fetched is at least what is accepted or will be.
    by_cases haccepts : willAccept q old.capacity (.added wq info.size) = true
    · have hboth := haccepts
      unfold willAccept at hboth
      rw [and_eq_true, beq_iff_eq, decide_eq_true_eq] at hboth
      obtain ⟨rfl, hlt⟩ := hboth
      rw [hwq, some.injEq] at hold
      subst hold
      have hsize := hinv.size wq info hwq
      have hle := willAccept_le_betweenOn wq info.capacity run.threads
      simp only [outstandingOn] at hsize
      rw [if_pos haccepts, if_neg (by simp [willAccept])] at hcount
      omega
    · rw [if_neg haccepts, if_neg (by simp [willAccept])] at hcount
      omega

lemma AdmissionInv.accept (hthread : run.threads[thread]? = some (.added wq result))
    (hwq : run.wqList[wq]? = some info) (hlt : result < info.capacity) (req : Nat) :
    AdmissionInv { run with threads := run.threads.set thread .idle, accepted := (req, wq) :: run.accepted } := by
  constructor
  · intro q info' hq
    have hsize := hinv.size q info' hq
    have hcount := countP_set_add (betweenOn q) hthread .idle
    simp only [outstandingOn, countP_cons, betweenOn] at hsize hcount ⊢
    by_cases hwqq : wq = q
    · simp [hwqq] at hcount ⊢
      omega
    · simp [hwqq] at hcount ⊢
      omega
  · intro q info' hq
    have hroom := hinv.room q info' hq
    have hcount := countP_set_add (willAccept q info'.capacity) hthread .idle
    simp only [outstandingOn, countP_cons, willAccept] at hroom hcount ⊢
    by_cases hwqq : wq = q
    · subst hwqq
      rw [hwq, some.injEq] at hq
      subst hq
      simp [hlt] at hcount ⊢
      omega
    · simp [hwqq] at hcount ⊢
      omega

lemma AdmissionInv.reject (hthread : run.threads[thread]? = some (.added wq result)) :
    AdmissionInv { run with threads := run.threads.set thread (.rejected wq) } := by
  constructor
  · intro q info' hq
    have hsize := hinv.size q info' hq
    have hcount := countP_set_add (betweenOn q) hthread (.rejected wq)
    have hsame : betweenOn q (.rejected wq) = betweenOn q (.added wq result) := rfl
    rw [hsame] at hcount
    simp only [outstandingOn] at hsize ⊢
    omega
  · intro q info' hq
    have hroom := hinv.room q info' hq
    have hcount := countP_set_add (willAccept q info'.capacity) hthread (.rejected wq)
    rw [if_neg (by simp [willAccept] : ¬ willAccept q info'.capacity (.rejected wq) = true)] at hcount
    simp only [outstandingOn] at hroom ⊢
    omega

lemma AdmissionInv.fetchSub (hthread : run.threads[thread]? = some (.rejected wq)) :
    AdmissionInv { run.changeSize wq (· - 1) with threads := run.threads.set thread .idle } := by
  constructor
  · intro q info' hq
    obtain ⟨old, hold, _, hnew⟩ := exists_of_changeSize run wq (· - 1) hq
    have hsize := hinv.size q old hold
    have hcount := countP_set_add (betweenOn q) hthread .idle
    simp only [outstandingOn, changeSize, betweenOn] at hsize hcount ⊢
    rw [hnew]
    by_cases hwqq : wq = q
    · simp [hwqq] at hcount ⊢
      omega
    · simp [hwqq] at hcount ⊢
      omega
  · intro q info' hq
    obtain ⟨old, hold, hcapacity, _⟩ := exists_of_changeSize run wq (· - 1) hq
    have hroom := hinv.room q old hold
    have hcount := countP_set_add (willAccept q old.capacity) hthread .idle
    simp only [willAccept, false_eq_true, if_false] at hcount
    rw [hcapacity]
    simp only [outstandingOn, changeSize] at hroom ⊢
    omega

lemma AdmissionInv.notifyCompletion {req : Nat} (hmem : (req, wq) ∈ run.accepted) :
    AdmissionInv { run.changeSize wq (· - 1) with accepted := run.accepted.erase (req, wq) } := by
  have hperm : ∀ q, run.accepted.countP (fun entry => entry.2 == q) =
      (run.accepted.erase (req, wq)).countP (fun entry => entry.2 == q) + if wq == q then 1 else 0 := by
    intro q
    rw [(perm_cons_erase hmem).countP_eq, countP_cons]
  constructor
  · intro q info' hq
    obtain ⟨old, hold, _, hnew⟩ := exists_of_changeSize run wq (· - 1) hq
    have hsize := hinv.size q old hold
    have hcount := hperm q
    simp only [outstandingOn, changeSize] at hsize ⊢
    rw [hnew]
    by_cases hwqq : wq = q
    · simp [hwqq] at hcount ⊢
      omega
    · simp [hwqq] at hcount ⊢
      omega
  · intro q info' hq
    obtain ⟨old, hold, hcapacity, _⟩ := exists_of_changeSize run wq (· - 1) hq
    have hroom := hinv.room q old hold
    have hcount := hperm q
    rw [hcapacity]
    simp only [outstandingOn, changeSize] at hroom ⊢
    omega

lemma AdmissionInv.step {run' : DispatcherRun} {ev : DispatcherEvent} (hallowed : run.notifiesAccepted ev)
    (hstep : run.step ev = .ok run') : AdmissionInv run' := by
  cases ev with
  | fetchAdd thread wq =>
    dsimp only [DispatcherRun.step] at hstep
    split at hstep
    case h_1 info hthread hwq =>
      rw [← ok.inj hstep]
      exact hinv.fetchAdd hthread hwq
    case h_2 => exact absurd hstep (by simp)
  | testCapacity thread req =>
    dsimp only [DispatcherRun.step] at hstep
    split at hstep
    case h_1 wq result hthread =>
      split at hstep
      case h_1 => exact absurd hstep (by simp)
      case h_2 info hwq =>
        by_cases hlt : result < info.capacity
        · rw [if_pos hlt] at hstep
          rw [← ok.inj hstep]
          exact hinv.accept hthread hwq hlt req
        · rw [if_neg hlt] at hstep
          rw [← ok.inj hstep]
          exact hinv.reject hthread
    case h_2 => exact absurd hstep (by simp)
  | fetchSub thread =>
    dsimp only [DispatcherRun.step] at hstep
    split at hstep
    case h_1 wq hthread =>
      rw [← ok.inj hstep]
      exact hinv.fetchSub hthread
    case h_2 => exact absurd hstep (by simp)
  | notifyCompletion req wq =>
    rw [← ok.inj hstep]
    exact hinv.notifyCompletion hallowed

end

lemma admissionInv_init (wqList : List WorkQueueInfo) (threads : Nat) : AdmissionInv (.init wqList threads) := by
  have hidle : ∀ p : SubmitPoint → Bool, p .idle = false → (replicate threads SubmitPoint.idle).countP p = 0 := by
    intro p hp
    rw [countP_replicate, if_neg (by simp [hp])]
  constructor
  · intro q info hq
    unfold DispatcherRun.init at hq
    rw [getElem?_map] at hq
    obtain ⟨old, _, rfl⟩ := map_eq_some_iff.mp hq
    simp [DispatcherRun.init, outstandingOn, hidle (betweenOn q) rfl]
  · intro q info hq
    simp [DispatcherRun.init, outstandingOn, hidle (willAccept q info.capacity) rfl]

/-- In every run in which each accepted request is notified once, the accepted and not yet notified
requests of a work queue are at most its capacity, and its size is their number and that of the
threads between `fetch_add` and their decision or rollback. -/
theorem work_queue_never_overfull (wqList : List WorkQueueInfo) (threads : Nat) {run : DispatcherRun}
    (hruns : Runs DispatcherRun.step DispatcherRun.notifiesAccepted (.init wqList threads) run) (q : Nat)
    (info : WorkQueueInfo) (hq : run.wqList[q]? = some info) :
    outstandingOn run q ≤ info.capacity ∧ info.size = outstandingOn run q + run.threads.countP (betweenOn q) ∧
      ((∀ point ∈ run.threads, point = .idle) → info.size = outstandingOn run q) := by
  have hinv : AdmissionInv run := by
    apply hruns.invariant (P := AdmissionInv) (admissionInv_init wqList threads)
    intro s ev s' hinv hallowed hstep
    exact hinv.step hallowed hstep
  have hsize := hinv.size q info hq
  have hroom := hinv.room q info hq
  refine ⟨by omega, hsize, ?_⟩
  intro hidle
  have hnone : run.threads.countP (betweenOn q) = 0 := by
    rw [List.countP_eq_zero]
    intro point hpoint
    rw [hidle point hpoint]
    exact false_ne_true
  rw [hsize, hnone, Nat.add_zero]

/-- Two threads and a work queue for one request: both add, one is accepted, the size is 2 until
the other one rolls back. -/
theorem work_queue_never_overfull_twoThreads : ∃ run info,
    Runs DispatcherRun.step DispatcherRun.notifiesAccepted (.init [⟨0, 0, 1, 0⟩] 2) run ∧
      run.wqList[0]? = some info ∧ info.size = 2 ∧ outstandingOn run 0 ≤ info.capacity := by
  obtain ⟨run, hruns, -, hgoal⟩ := exists_runs_of_reaches DispatcherRun.step (.init [⟨0, 0, 1, 0⟩] 2)
    [.fetchAdd 0 0, .fetchAdd 1 0, .testCapacity 1 5, .testCapacity 0 6]
    (fun run ev => decide (run.notifiesAccepted ev)) (fun run => decide (run.wqList[0]? = some (⟨0, 0, 1, 2⟩ : WorkQueueInfo)))
    (fun run ev h => of_decide_eq_true h) (by decide)
  have hinfo := of_decide_eq_true hgoal
  exact ⟨run, _, hruns, hinfo, rfl, (work_queue_never_overfull _ _ hruns 0 _ hinfo).1⟩

end Vesal.Proofs
