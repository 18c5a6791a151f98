import Vesal.Library.EventRuns
import Vesal.Proofs.RingQueue

/-! # The queue of results as a map in the order of the numbers -/

namespace Vesal.Proofs

open InflightReqRingQueue Library List Int

inductive QueueCall (Result : Type) where
  | newReq
  | pushResult (r : Result) (id : Nat)
  | popResults (size : Int)

inductive QueueAnswer (Result : Type) where
  | number (id : Int)
  | nothing
  | results (rs : List Result)

variable {Result : Type}

def queueCall (q : InflightReqRingQueue Result) :
    QueueCall Result → QueueAnswer Result × InflightReqRingQueue Result
  | .newReq => (.number q.newReq.1, q.newReq.2)
  | .pushResult r id => (.nothing, q.pushResult r id)
  | .popResults size => (.results (q.popResults size).1, (q.popResults size).2)

/-- The numbers that are not popped, from `first` on, each with its result if it has one. -/
structure OrderedResults (Result : Type) where
  first : Nat
  entries : List (Option Result)

/-- What the queue is for: at most `size` numbers are out, and the results are popped in the order
of the numbers, up to the first number that has none. -/
def orderedCall (size : Nat) (m : OrderedResults Result) :
    QueueCall Result → QueueAnswer Result × OrderedResults Result
  | .newReq =>
    if m.entries.length = size then (.number (-1), m)
    else (.number (m.first + m.entries.length : Nat), ⟨m.first, m.entries ++ [none]⟩)
  | .pushResult r id => (.nothing, ⟨m.first, m.entries.set (id - m.first) (some r)⟩)
  | .popResults limit =>
    let rs := (ready m.entries).take limit.toNat
    (.results rs, ⟨m.first + rs.length, m.entries.drop rs.length⟩)

/-- A result is pushed once, for a number that is out. -/
def PushedOnce (m : OrderedResults Result) : QueueCall Result → Prop
  | .pushResult _ id => m.first ≤ id ∧ m.entries[id - m.first]? = some none
  | _ => True

/-- The queue and the map side by side. -/
structure QueueRun (Result : Type) where
  queue : InflightReqRingQueue Result
  ordered : OrderedResults Result

def queueStep (size : Nat) (run : QueueRun Result) (call : QueueCall Result) :
    Except Unit (QueueRun Result) :=
  .ok ⟨(queueCall run.queue call).2, (orderedCall size run.ordered call).2⟩

/-- Every call is answered as by the map, and no two numbers that are out share an entry of the
array. -/
structure InOrder (size : Nat) (run : QueueRun Result) : Prop where
  answers : ∀ call, PushedOnce run.ordered call →
    (queueCall run.queue call).1 = (orderedCall size run.ordered call).1
  entries : ∀ j k, j < run.ordered.entries.length → k < run.ordered.entries.length → j ≠ k →
    ((run.ordered.first + j : Nat) : Int).tmod run.queue.size ≠
      ((run.ordered.first + k : Nat) : Int).tmod run.queue.size
  inside : ∀ id : Nat, 0 ≤ (id : Int).tmod run.queue.size ∧ (id : Int).tmod run.queue.size < size

structure QueueInv (size : Nat) (run : QueueRun Result) : Prop where
  size_eq : run.queue.size = size
  head : run.queue.headId = run.ordered.first
  represents : Represents run.queue run.ordered.entries

variable {size : Nat} {run run' : QueueRun Result}

lemma QueueInv.full_iff (h : QueueInv size run) :
    run.queue.isFull = true ↔ run.ordered.entries.length = size := by
  rw [h.represents.isFull_iff, h.size_eq]
  exact Nat.cast_inj

variable {id : Nat} {r : Result}

section

variable (h : QueueInv size run)
include h

lemma QueueInv.pushed_index (honce : PushedOnce run.ordered (.pushResult r id)) :
    id = run.queue.headId + (id - run.ordered.first) ∧ id - run.ordered.first < run.ordered.entries.length := by
  have hlt := (List.getElem?_eq_some_iff.mp honce.2).1
  have hle := honce.1
  have hhead := h.head
  omega

lemma QueueInv.inOrder : InOrder size run where
  answers call honce := by
    cases call with
    | newReq =>
      unfold queueCall orderedCall
      by_cases hfull : run.ordered.entries.length = size
      · rw [if_pos hfull, newReq, if_pos (h.full_iff.mpr hfull)]
      · have hroom : run.queue.isFull = false := by
          rw [Bool.eq_false_iff, Ne, h.full_iff]
          exact hfull
        rw [if_neg hfull, (h.represents.newReq hroom).1, h.head]
    | pushResult r id => rfl
    | popResults limit =>
      obtain ⟨q', hpop, -, -⟩ := h.represents.popResults limit
      unfold queueCall orderedCall
      dsimp only
      rw [hpop]
  entries j k hj hk hne := by
    rw [← h.head]
    exact h.represents.mod_ne hj hk hne
  inside id := by
    have hpos := h.represents.size_pos
    refine ⟨tmod_nonneg _ (natCast_nonneg id), ?_⟩
    rw [← h.size_eq]
    exact tmod_lt_of_pos _ hpos

lemma QueueInv.newReq (hstep : queueStep size run .newReq = .ok run') :
    QueueInv size run' := by
  unfold queueStep queueCall orderedCall at hstep
  by_cases hfull : run.ordered.entries.length = size
  · rw [if_pos hfull, InflightReqRingQueue.newReq, if_pos (h.full_iff.mpr hfull)] at hstep
    cases hstep
    exact h
  · have hroom : run.queue.isFull = false := by
      rw [Bool.eq_false_iff, Ne, h.full_iff]
      exact hfull
    obtain ⟨hnew, hrep⟩ := h.represents.newReq hroom
    rw [if_neg hfull, hnew] at hstep
    cases hstep
    exact ⟨h.size_eq, h.head, hrep⟩

lemma QueueInv.pushResult (honce : PushedOnce run.ordered (.pushResult r id))
    (hstep : queueStep size run (.pushResult r id) = .ok run') : QueueInv size run' := by
  obtain ⟨hid, hlt⟩ := h.pushed_index honce
  have hrep := h.represents.pushResult hlt r
  rw [← hid] at hrep
  cases hstep
  exact ⟨h.size_eq, h.head, hrep⟩

lemma QueueInv.popResults {limit : Int} (hstep : queueStep size run (.popResults limit) = .ok run') :
    QueueInv size run' := by
  obtain ⟨q', hpop, hrep, hhead⟩ := h.represents.popResults limit
  have hsize : q'.size = run.queue.size := by
    have hfields := (popLoop_fields (run.queue.tailId - run.queue.headId)
      ((run.queue.headId : Int).tmod run.queue.size) limit.toNat run.queue).1
    change (run.queue.popResults limit).2.size = run.queue.size at hfields
    rwa [hpop] at hfields
  unfold queueStep queueCall orderedCall at hstep
  dsimp only at hstep
  rw [hpop] at hstep
  cases hstep
  refine ⟨hsize.trans h.size_eq, ?_, hrep⟩
  rw [hhead, h.head]

lemma QueueInv.step {call : QueueCall Result} (honce : PushedOnce run.ordered call)
    (hstep : queueStep size run call = .ok run') : QueueInv size run' := by
  cases call with
  | newReq => exact h.newReq hstep
  | pushResult r id => exact h.pushResult honce hstep
  | popResults limit => exact h.popResults hstep

end

lemma size_new (size : Nat) (blank : Result) : (InflightReqRingQueue.new size blank).size = toInt32 size := by
  simp only [InflightReqRingQueue.new]

lemma queueInv_new (hpos : 0 < size) (hsize : size < 2 ^ 31) (blank : Result) :
    QueueInv size ⟨.new size blank, ⟨0, []⟩⟩ := by
  refine ⟨?_, rfl, represents_new hpos hsize blank⟩
  rw [size_new, toInt32_of_lt hsize]

variable {q : InflightReqRingQueue Result}

lemma isFull_of_tailId (hhead : q.headId = 0) (k : Nat) :
    ({ q with tailId := k } : InflightReqRingQueue Result).isFull = true ↔ (k : Int) = q.size := by
  rw [isFull, beq_iff_eq, hhead, Nat.cast_zero, sub_zero]

-- neither the queue nor the map is full before the last of the calls
lemma runs_newReqs {k : Nat} (hhead : q.headId = 0) (htail : q.tailId = 0) (hsize : k ≤ size)
    (hint : ∀ j < k, (j : Int) ≠ q.size) :
    Runs (queueStep size) (fun run => PushedOnce run.ordered) ⟨q, ⟨0, []⟩⟩
      ⟨{ q with tailId := k }, ⟨0, replicate k none⟩⟩ := by
  induction k with
  | zero =>
    cases q
    cases htail
    exact Relation.ReflTransGen.refl
  | succ k ih =>
    refine (ih (by omega) fun j hj => hint j (by omega)).tail ⟨.newReq, True.intro, ?_⟩
    have hroom := mt (isFull_of_tailId hhead k).mp (hint k (by omega))
    have hlt : ¬(replicate k (none : Option Result)).length = size := by
      rw [length_replicate]
      omega
    unfold queueStep queueCall orderedCall
    rw [if_neg hlt, newReq, if_neg hroom, ← replicate_succ']

lemma toInt32_lt (n : Nat) : toInt32 n < 2 ^ 31 := by
  have h := bmod_lt (x := (n : Int)) (m := 2 ^ 32) (by norm_num)
  norm_num at h ⊢
  exact h

/-- The queue is right exactly for the sizes that an `int` holds. -/
theorem ring_queue_ordered_iff (size : Nat) (hpos : 1 ≤ size) (blank : Result) :
    (∀ run, Runs (queueStep size) (fun run => PushedOnce run.ordered) ⟨.new size blank, ⟨0, []⟩⟩ run →
      InOrder size run) ↔ size < 2 ^ 31 := by
  constructor
  · intro h
    by_contra hge
    have hlt := toInt32_lt size
    have hruns : ∀ k, k ≤ size → (∀ j < k, (j : Int) ≠ toInt32 size) → InOrder size
        ⟨{ InflightReqRingQueue.new size blank with tailId := k }, ⟨0, replicate k none⟩⟩ :=
      fun k hk hint => h _ (runs_newReqs rfl rfl hk (by rwa [size_new]))
    rcases lt_or_ge (toInt32 size) 0 with hneg | hnonneg
    · -- a negative `size_` is never reached
      have hanswer := (hruns size le_rfl fun j _ => by omega).answers .newReq True.intro
      have hroom := mt (isFull_of_tailId (q := .new size blank) rfl size).mp (by rw [size_new]; omega)
      unfold queueCall orderedCall at hanswer
      dsimp only at hanswer
      rw [if_pos length_replicate, newReq, if_neg hroom] at hanswer
      injection hanswer with hid
      dsimp only at hid
      omega
    · -- the queue is full before `size` numbers are out
      obtain ⟨k, hk⟩ := eq_ofNat_of_zero_le hnonneg
      have hanswer := (hruns k (by omega) fun j hj => by omega).answers .newReq True.intro
      have hfull := (isFull_of_tailId (q := .new size blank) rfl k).mpr (by rw [size_new, hk])
      have hroom : ¬(replicate k (none : Option Result)).length = size := by
        rw [length_replicate]
        omega
      unfold queueCall orderedCall at hanswer
      dsimp only at hanswer
      rw [if_neg hroom, newReq, if_pos hfull] at hanswer
      injection hanswer with hid
      dsimp only at hid
      omega
  · intro hsize run hrun
    exact (hrun.invariant (P := QueueInv size) (queueInv_new hpos hsize blank)
      fun _ _ _ hinv honce hstep => hinv.step honce hstep).inOrder

theorem ring_queue_ordered_iff_three : 1 ≤ 3 ∧
    ∀ run, Runs (queueStep 3) (fun run => PushedOnce run.ordered) ⟨.new 3 'a', ⟨0, []⟩⟩ run →
      InOrder 3 run :=
  ⟨by decide, (ring_queue_ordered_iff 3 (by decide) 'a').mpr (by decide)⟩

/-- A queue of 2 ^ 32 entries is full at once. -/
theorem ring_queue_full_when_empty :
    (InflightReqRingQueue.new (2 ^ 32) 'a').newReq.1 = -1 ∧
      ¬InOrder (2 ^ 32) ⟨.new (2 ^ 32) 'a', ⟨0, []⟩⟩ := by
  have hnew : (InflightReqRingQueue.new (2 ^ 32) 'a').newReq.1 = -1 := by decide
  refine ⟨hnew, ?_⟩
  intro h
  have hanswer := h.answers .newReq True.intro
  unfold queueCall at hanswer
  rw [hnew] at hanswer
  injection hanswer with hid
  cases hid

end Vesal.Proofs
