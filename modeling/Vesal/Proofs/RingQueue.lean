import Vesal.ReqRingQueue

/-! # The queue of results as a list -/

namespace Vesal.Proofs

open InflightReqRingQueue List Function Int

variable {Result : Type} {q : InflightReqRingQueue Result} {xs : List (Option Result)}

def entryOf (q : InflightReqRingQueue Result) (id : Nat) : InflightReq Result :=
  q.reqs ((id : Int).tmod q.size)

structure Represents (q : InflightReqRingQueue Result) (xs : List (Option Result)) : Prop where
  size_pos : 0 < q.size
  tail : q.tailId = q.headId + xs.length
  room : (xs.length : Int) ≤ q.size
  done : ∀ k r, xs[k]? = some (some r) → entryOf q (q.headId + k) = ⟨r, (q.headId + k : Nat)⟩
  waiting : ∀ k, xs[k]? = some none → (entryOf q (q.headId + k)).id < (q.headId + k : Nat)
  past : ∀ id, (entryOf q id).id < (q.tailId : Int)

lemma toInt32_of_lt {n : Nat} (h : n < 2 ^ 31) : toInt32 n = n := by
  apply bmod_eq_of_le_mul_two
  · push_cast
    omega
  · push_cast
    omega

lemma represents_new {size : Nat} (hpos : 0 < size) (hsize : size < 2 ^ 31) (blank : Result) :
    Represents (InflightReqRingQueue.new size blank) [] where
  size_pos := by
    simp only [InflightReqRingQueue.new, toInt32_of_lt hsize]
    exact ofNat_lt.mpr hpos
  tail := rfl
  room := by
    simp only [InflightReqRingQueue.new, toInt32_of_lt hsize]
    exact natCast_nonneg size
  done := by simp
  waiting := by simp
  past id := by simp [entryOf, InflightReqRingQueue.new]

section

variable (h : Represents q xs)
include h

lemma Represents.isFull_iff : q.isFull = true ↔ (xs.length : Int) = q.size := by
  rw [isFull, beq_iff_eq, h.tail, Nat.cast_add, add_sub_cancel_left]

lemma Represents.exists_size : ∃ n : Nat, 0 < n ∧ q.size = n := by
  obtain ⟨n, hn⟩ := eq_ofNat_of_zero_le h.size_pos.le
  refine ⟨n, ?_, hn⟩
  have hpos := h.size_pos
  rw [hn] at hpos
  exact ofNat_lt.mp hpos

lemma Represents.newReq (hroom : q.isFull = false) :
    q.newReq = (((q.headId + xs.length : Nat) : Int), { q with tailId := q.tailId + 1 }) ∧
      Represents { q with tailId := q.tailId + 1 } (xs ++ [none]) := by
  have hne : (xs.length : Int) ≠ q.size := by
    intro hfull
    rw [h.isFull_iff.mpr hfull] at hroom
    cases hroom
  have hle := h.room
  refine ⟨?_, ?_⟩
  · unfold InflightReqRingQueue.newReq
    rw [hroom, h.tail]
    rfl
  · refine
      { size_pos := h.size_pos
        tail := ?_
        room := ?_
        done := ?_
        waiting := ?_
        past := ?_ }
    · rw [length_append, length_singleton]
      exact congrArg (· + 1) h.tail
    · rw [length_append, length_singleton]
      exact add_one_le_of_lt (lt_of_le_of_ne hle hne)
    · intro k r hk
      rw [getElem?_append] at hk
      split at hk
      · exact h.done k r hk
      · simp [getElem?_singleton] at hk
    · intro k hk
      rw [getElem?_append] at hk
      split at hk
      · exact h.waiting k hk
      · rename_i hge
        have hlast : k = xs.length := by
          have hlt := (List.getElem?_eq_some_iff.mp hk).1
          rw [length_singleton] at hlt
          omega
        have hpast := h.past (q.headId + k)
        rw [h.tail, ← hlast] at hpast
        exact hpast
    · intro id
      have hpast := h.past id
      refine lt_trans hpast ?_
      exact ofNat_lt.mpr (Nat.lt_succ_self _)

lemma Represents.mod_ne {j k : Nat} (hj : j < xs.length) (hk : k < xs.length) (hne : j ≠ k) :
    ((q.headId + j : Nat) : Int).tmod q.size ≠ ((q.headId + k : Nat) : Int).tmod q.size := by
  intro hsame
  have hroom := h.room
  obtain ⟨n, -, hn⟩ := h.exists_size
  rw [hn] at hroom hsame
  have heq : (q.headId + j) % n = (q.headId + k) % n := ofNat.inj hsame
  rcases Nat.lt_or_gt_of_ne hne with hlt | hgt
  · have hzero := Nat.sub_mod_eq_zero_of_mod_eq heq.symm
    rw [Nat.mod_eq_of_lt (by omega)] at hzero
    omega
  · have hzero := Nat.sub_mod_eq_zero_of_mod_eq heq
    rw [Nat.mod_eq_of_lt (by omega)] at hzero
    omega

end

lemma entryOf_pushResult (q : InflightReqRingQueue Result) (r : Result) (id id' : Nat) :
    entryOf (q.pushResult r (id : Int)) id' =
      if (id' : Int).tmod q.size = (id : Int).tmod q.size then ⟨r, (id : Int)⟩ else entryOf q id' := by
  unfold entryOf pushResult
  dsimp only
  by_cases heq : (id' : Int).tmod q.size = (id : Int).tmod q.size
  · rw [if_pos heq, heq, update_self]
  · rw [if_neg heq, update_of_ne heq]

lemma Represents.pushResult (h : Represents q xs) {k : Nat} (hk : k < xs.length) (r : Result) :
    Represents (q.pushResult r ((q.headId + k : Nat) : Int)) (xs.set k (some r)) := by
  have hother : ∀ j < xs.length, j ≠ k → entryOf (q.pushResult r ((q.headId + k : Nat) : Int)) (q.headId + j) =
      entryOf q (q.headId + j) := by
    intro j hj hne
    rw [entryOf_pushResult, if_neg (h.mod_ne hj hk hne)]
  refine
    { size_pos := h.size_pos
      tail := ?_
      room := ?_
      done := ?_
      waiting := ?_
      past := ?_ }
  · rw [length_set]
    exact h.tail
  · rw [length_set]
    exact h.room
  · intro j r' hj
    have hlt : j < xs.length := by
      have := (List.getElem?_eq_some_iff.mp hj).1
      rwa [length_set] at this
    change entryOf _ (q.headId + j) = ⟨r', ((q.headId + j : Nat) : Int)⟩
    by_cases hjk : j = k
    · subst hjk
      rw [getElem?_set_self hlt] at hj
      cases hj
      rw [entryOf_pushResult, if_pos rfl]
    · rw [hother j hlt hjk]
      rw [getElem?_set_ne (Ne.symm hjk)] at hj
      exact h.done j r' hj
  · intro j hj
    have hlt : j < xs.length := by
      have := (List.getElem?_eq_some_iff.mp hj).1
      rwa [length_set] at this
    change (entryOf _ (q.headId + j)).id < ((q.headId + j : Nat) : Int)
    by_cases hjk : j = k
    · subst hjk
      rw [getElem?_set_self hlt] at hj
      cases hj
    · rw [hother j hlt hjk]
      rw [getElem?_set_ne (Ne.symm hjk)] at hj
      exact h.waiting j hj
  · intro id
    rw [entryOf_pushResult]
    split
    · have htail := h.tail
      exact ofNat_lt.mpr (by change q.headId + k < q.tailId; omega)
    · exact h.past id

lemma Represents.tail_of_cons {x : Option Result} (h : Represents q (x :: xs)) :
    Represents { q with headId := q.headId + 1 } xs := by
  have hid : ∀ k, q.headId + 1 + k = q.headId + (k + 1) := fun k => by omega
  refine
    { size_pos := h.size_pos
      tail := ?_
      room := ?_
      done := ?_
      waiting := ?_
      past := h.past }
  · have htail := h.tail
    rw [length_cons] at htail
    change q.tailId = q.headId + 1 + xs.length
    omega
  · have hroom := h.room
    rw [length_cons] at hroom
    change (xs.length : Int) ≤ q.size
    omega
  · intro k r hk
    rw [hid]
    exact h.done (k + 1) r hk
  · intro k hk
    rw [hid]
    exact h.waiting (k + 1) hk

def ready (xs : List (Option Result)) : List Result := (xs.takeWhile Option.isSome).filterMap id

lemma ready_none (xs : List (Option Result)) : ready (none :: xs) = [] := rfl

lemma ready_some (r : Result) (xs : List (Option Result)) : ready (some r :: xs) = r :: ready xs := rfl

lemma Represents.popLoop (h : Represents q xs) (room : Nat) :
    ∃ q', InflightReqRingQueue.popLoop xs.length ((q.headId : Int).tmod q.size) room q =
        ((ready xs).take room, q') ∧
      Represents q' (xs.drop ((ready xs).take room).length) ∧
      q'.headId = q.headId + ((ready xs).take room).length := by
  induction xs generalizing q room with
  | nil => exact ⟨q, by simp [InflightReqRingQueue.popLoop, ready], by simpa [ready] using h, by simp [ready]⟩
  | cons x xs ih =>
    cases room with
    | zero => exact ⟨q, rfl, h, by simp⟩
    | succ room =>
      rw [length_cons]
      unfold InflightReqRingQueue.popLoop
      cases x with
      | none =>
        have hwaiting : (q.reqs ((q.headId : Int).tmod q.size)).id < (q.headId : Int) := h.waiting 0 rfl
        rw [if_pos hwaiting, ready_none]
        exact ⟨q, rfl, h, rfl⟩
      | some r =>
        have hdone : q.reqs ((q.headId : Int).tmod q.size) = ⟨r, (q.headId : Int)⟩ := h.done 0 r rfl
        obtain ⟨q', hpop, hrep, hhead⟩ := ih h.tail_of_cons room
        have hindex : ((q.headId : Int).tmod q.size + 1).tmod q.size = ((q.headId + 1 : Nat) : Int).tmod q.size := by
          obtain ⟨n, -, hn⟩ := h.exists_size
          rw [hn]
          change (((q.headId % n + 1) % n : Nat) : Int) = (((q.headId + 1) % n : Nat) : Int)
          rw [Nat.mod_add_mod]
        rw [hdone, if_neg (lt_irrefl _), hindex]
        rw [hpop, ready_some, take_succ_cons, length_cons, drop_succ_cons]
        refine ⟨q', rfl, hrep, ?_⟩
        rw [hhead]
        dsimp only
        omega

lemma popLoop_fields (n : Nat) (i : Int) (room : Nat) (q : InflightReqRingQueue Result) :
    (InflightReqRingQueue.popLoop n i room q).2.size = q.size ∧
      (InflightReqRingQueue.popLoop n i room q).2.tailId = q.tailId := by
  induction n generalizing i room q with
  | zero => exact ⟨rfl, rfl⟩
  | succ n ih =>
    cases room with
    | zero => exact ⟨rfl, rfl⟩
    | succ room =>
      unfold InflightReqRingQueue.popLoop
      split
      · exact ⟨rfl, rfl⟩
      · exact ih _ room { q with headId := q.headId + 1 }

lemma Represents.popResults (h : Represents q xs) (size : Int) :
    ∃ q', q.popResults size = ((ready xs).take size.toNat, q') ∧
      Represents q' (xs.drop ((ready xs).take size.toNat).length) ∧
      q'.headId = q.headId + ((ready xs).take size.toNat).length := by
  unfold InflightReqRingQueue.popResults
  rw [h.tail, Nat.add_sub_cancel_left]
  exact h.popLoop size.toNat

end Vesal.Proofs
