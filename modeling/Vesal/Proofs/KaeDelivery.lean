import Vesal.KaeCodecChannel
import Vesal.Library.EventRuns
import Vesal.Proofs.RingQueue

/-! # Delivery by the KAE channel -/

namespace Vesal.Proofs

open Kae KaeCodecChannel InflightReqRingQueue Library List Function

variable {ch ch' : KaeCodecChannel} {xs : List (Option CodecResult)} {ps : List PendingOp}

/-- A result belongs to the `k`-th accepted request: it has its user context and what the
library reported of it. -/
structure IsAnswer (log : KaeLog) (k : Nat) (r : CodecResult) : Prop where
  usrCtx : log.accepted[k]? = some r.ctx
  reported : ∃ result, log.completed k = some result ∧ r.status = kaeStatusToStatusCode result.status ∧
    r.consumed = result.srcSize % 2 ^ 32 ∧ r.produced = result.dstLen % 2 ^ 32

/-- The results come back in the order of the accepted requests, no context is written while
its request is pending, every accepted request has a number, and every result is pushed for a
number that was not handed out. -/
structure KaeDelivered (log : KaeLog) : Prop where
  inOrder : ∀ k r, log.returned[k]? = some r → IsAnswer log k r
  kept : log.overwritten = []
  numbered : ∀ id ∈ log.ringIds, id ≠ -1
  pushed : ∀ p ∈ log.pushes, 0 ≤ p.id ∧ (p.headId : Int) ≤ p.id

/-- A request that waits for its completion: its entry has no result yet, and its context is
the one that was prepared for it. -/
structure Waits (ch : KaeCodecChannel) (xs : List (Option CodecResult)) (p : PendingOp) : Prop where
  slot : p.slot = p.number % maxKaeConcurrency
  entry : ∃ k, p.number = ch.inflightReqQueue.headId + k ∧ xs[k]? = some none
  ringId : (ch.reqContextPool p.slot).reqRingId = p.number
  usrCtx : ch.log.accepted[p.number]? = some (ch.reqContextPool p.slot).usrCtx

structure KaeInv (ch : KaeCodecChannel) (ps : List PendingOp) (xs : List (Option CodecResult)) : Prop where
  delivered : KaeDelivered ch.log
  queue : Represents ch.inflightReqQueue xs
  size : ch.inflightReqQueue.size = maxKaeConcurrency
  head : ch.inflightReqQueue.headId = ch.log.returned.length
  tail : ch.inflightReqQueue.tailId = ch.log.accepted.length
  reqId : ch.reqId = ch.log.accepted.length % 2 ^ 64
  nodup : (ps.map PendingOp.number).Nodup
  waits : ∀ p ∈ ps, Waits ch xs p
  done : ∀ k r, xs[k]? = some (some r) → IsAnswer ch.log (ch.inflightReqQueue.headId + k) r

lemma KaeInv.perm {ps' : List PendingOp} (h : KaeInv ch ps xs) (hperm : ps.Perm ps') : KaeInv ch ps' xs :=
  { h with
    nodup := (hperm.map PendingOp.number).nodup h.nodup
    waits := fun p hp => h.waits p (hperm.mem_iff.mpr hp) }

lemma KaeInv.length_add (h : KaeInv ch ps xs) :
    ch.inflightReqQueue.headId + xs.length = ch.log.accepted.length := by
  rw [← h.tail, h.queue.tail]

variable {p : PendingOp}

lemma Waits.number_lt (h : KaeInv ch ps xs) (hp : p ∈ ps) :
    ch.inflightReqQueue.headId ≤ p.number ∧ p.number < ch.log.accepted.length := by
  obtain ⟨k, hk, hnone⟩ := (h.waits p hp).entry
  have hlt := (List.getElem?_eq_some_iff.mp hnone).1
  have hlen := h.length_add
  omega

lemma kaeInv_setSess {compress : Bool} {l : List PendingOp} :
    KaeInv (ch.setSess compress l) ps xs ↔ KaeInv ch ps xs := by
  have hwaits : ∀ p, Waits (ch.setSess compress l) xs p ↔ Waits ch xs p := by
    intro p
    cases compress
    · exact ⟨fun h => ⟨h.slot, h.entry, h.ringId, h.usrCtx⟩, fun h => ⟨h.slot, h.entry, h.ringId, h.usrCtx⟩⟩
    · exact ⟨fun h => ⟨h.slot, h.entry, h.ringId, h.usrCtx⟩, fun h => ⟨h.slot, h.entry, h.ringId, h.usrCtx⟩⟩
  cases compress
  · exact ⟨fun h => { h with waits := fun p hp => (hwaits p).mp (h.waits p hp) },
      fun h => { h with waits := fun p hp => (hwaits p).mpr (h.waits p hp) }⟩
  · exact ⟨fun h => { h with waits := fun p hp => (hwaits p).mp (h.waits p hp) },
      fun h => { h with waits := fun p hp => (hwaits p).mpr (h.waits p hp) }⟩

lemma pending_setSess_perm {compress : Bool} {rest : List PendingOp} (h : ch.sess compress = p :: rest) :
    ch.pending.Perm (p :: (ch.setSess compress rest).pending) := by
  unfold pending
  cases compress
  · have hsess : ch.decompressSess = p :: rest := h
    rw [hsess]
    exact perm_middle
  · have hsess : ch.compressSess = p :: rest := h
    rw [hsess]
    exact Perm.refl _

lemma codecResult_answer (ch : KaeCodecChannel) (result : KaezipResult) (c : ReqContext) :
    (ch.codecResult result c).ctx = c.usrCtx ∧
      (ch.codecResult result c).status = kaeStatusToStatusCode result.status ∧
      (ch.codecResult result c).consumed = result.srcSize % 2 ^ 32 ∧
      (ch.codecResult result c).produced = result.dstLen % 2 ^ 32 := by
  unfold codecResult
  dsimp only
  split
  · exact ⟨rfl, rfl, rfl, rfl⟩
  · exact ⟨rfl, rfl, rfl, rfl⟩

variable {n : Nat} {r : CodecResult}

lemma IsAnswer.update {log : KaeLog} {k : Nat} (h : IsAnswer log k r) (hne : k ≠ n) (result : KaezipResult)
    (pushes : List Push) :
    IsAnswer { log with completed := Function.update log.completed n (some result), pushes := pushes } k r where
  usrCtx := h.usrCtx
  reported := by
    obtain ⟨result', hreport, hfields⟩ := h.reported
    exact ⟨result', (update_of_ne hne _ _).trans hreport, hfields⟩

lemma KaeInv.kaeCallback (h : KaeInv ch (p :: ps) xs) (result : KaezipResult) :
    ∃ xs', KaeInv (ch.kaeCallback result p) ps xs' := by
  have hp := h.waits p mem_cons_self
  have hnodup := h.nodup
  rw [map_cons, nodup_cons] at hnodup
  obtain ⟨k, hnumber, hnone⟩ := hp.entry
  have hk : k < xs.length := (List.getElem?_eq_some_iff.mp hnone).1
  have hid : (ch.reqContextPool p.slot).reqRingId = ((ch.inflightReqQueue.headId + k : Nat) : Int) := by
    rw [hp.ringId, hnumber]
  have hqueue := h.queue.pushResult hk (ch.codecResult result (ch.reqContextPool p.slot))
  rw [← hid] at hqueue
  have hother : ∀ j, j ≠ k → (xs.set k (some (ch.codecResult result (ch.reqContextPool p.slot))))[j]? = xs[j]? :=
    fun j hj => getElem?_set_ne (Ne.symm hj)
  refine ⟨xs.set k (some (ch.codecResult result (ch.reqContextPool p.slot))), ?_⟩
  refine
    { delivered := ⟨?_, h.delivered.kept, h.delivered.numbered, ?_⟩
      queue := hqueue
      size := h.size
      head := h.head
      tail := h.tail
      reqId := h.reqId
      nodup := hnodup.2
      waits := ?_
      done := ?_ }
  · intro j r hj
    have hlt := (List.getElem?_eq_some_iff.mp hj).1
    have hhead := h.head
    exact (h.delivered.inOrder j r hj).update (by change j < ch.log.returned.length at hlt; omega) result _
  · intro q hq
    change q ∈ ch.log.pushes ++ [_] at hq
    rw [mem_append, mem_singleton] at hq
    rcases hq with hq | rfl
    · exact h.delivered.pushed q hq
    · dsimp only
      rw [hid]
      exact ⟨Int.natCast_nonneg _, Int.ofNat_le.mpr (Nat.le_add_right _ _)⟩
  · intro q hq
    have hwait := h.waits q (mem_cons_of_mem _ hq)
    obtain ⟨j, hj, hnone'⟩ := hwait.entry
    refine ⟨hwait.slot, ⟨j, hj, ?_⟩, hwait.ringId, hwait.usrCtx⟩
    rw [hother]
    · exact hnone'
    · rintro rfl
      apply hnodup.1
      rw [hnumber, ← hj]
      exact mem_map_of_mem hq
  · intro j r hj
    change IsAnswer _ (ch.inflightReqQueue.headId + j) r
    by_cases hjk : j = k
    · subst hjk
      rw [getElem?_set_self hk] at hj
      cases hj
      obtain ⟨hctx, hfields⟩ := codecResult_answer ch result (ch.reqContextPool p.slot)
      refine ⟨?_, result, ?_, hfields⟩
      · rw [hctx, ← hnumber]
        exact hp.usrCtx
      · change Function.update ch.log.completed p.number (some result) (ch.inflightReqQueue.headId + j) = some result
        rw [← hnumber, update_self]
    · rw [hother j hjk] at hj
      exact (h.done j r hj).update (by omega) result _

lemma KaeInv.asyncPollingInSession (compress : Bool) (results : List KaezipResult)
    (h : ∃ xs, KaeInv ch ch.pending xs) :
    ∃ xs, KaeInv (ch.asyncPollingInSession compress results) (ch.asyncPollingInSession compress results).pending xs := by
  induction results generalizing ch with
  | nil => exact h
  | cons result results ih =>
    unfold KaeCodecChannel.asyncPollingInSession
    cases hsess : ch.sess compress with
    | nil => exact h
    | cons p rest =>
      apply ih
      obtain ⟨xs, hinv⟩ := h
      exact (kaeInv_setSess.mpr (hinv.perm (pending_setSess_perm hsess))).kaeCallback result

lemma getElem?_of_ready {j : Nat} (h : (ready xs)[j]? = some r) : xs[j]? = some (some r) := by
  induction xs generalizing j with
  | nil => simp [ready] at h
  | cons x xs ih =>
    cases x with
    | none => simp [ready_none] at h
    | some r' =>
      rw [ready_some] at h
      cases j with
      | zero => simpa using h
      | succ j =>
        exact ih h

lemma KaeInv.popResults (h : KaeInv ch ps xs) (size : Int) :
    ∃ xs', KaeInv
      { ch with
        inflightReqQueue := (ch.inflightReqQueue.popResults size).2
        log := { ch.log with returned := ch.log.returned ++ (ch.inflightReqQueue.popResults size).1 } } ps xs' := by
  obtain ⟨q', hpop, hqueue, hhead⟩ := h.queue.popResults size
  obtain ⟨results, hresults⟩ : ∃ results, results = (ready xs).take size.toNat := ⟨_, rfl⟩
  rw [← hresults] at hpop hqueue hhead
  have hsize : q'.size = ch.inflightReqQueue.size ∧ q'.tailId = ch.inflightReqQueue.tailId := by
    have hfields := popLoop_fields (ch.inflightReqQueue.tailId - ch.inflightReqQueue.headId)
      ((ch.inflightReqQueue.headId : Int).tmod ch.inflightReqQueue.size) size.toNat ch.inflightReqQueue
    unfold InflightReqRingQueue.popResults at hpop
    rw [hpop] at hfields
    exact hfields
  have htaken : ∀ (j : Nat) (r : CodecResult), results[j]? = some r → xs[j]? = some (some r) := by
    intro j r hj
    apply getElem?_of_ready
    rw [hresults, getElem?_take] at hj
    split at hj
    · exact hj
    · cases hj
  refine ⟨xs.drop results.length, ?_⟩
  rw [hpop]
  refine
    { delivered := ⟨?_, h.delivered.kept, h.delivered.numbered, h.delivered.pushed⟩
      queue := hqueue
      size := hsize.1.trans h.size
      head := ?_
      tail := hsize.2.trans h.tail
      reqId := h.reqId
      nodup := h.nodup
      waits := ?_
      done := ?_ }
  · intro k r hk
    change (ch.log.returned ++ results)[k]? = some r at hk
    rw [getElem?_append] at hk
    have hanswer : IsAnswer ch.log k r := by
      split at hk
      · exact h.delivered.inOrder k r hk
      · have hdone := h.done _ r (htaken _ r hk)
        have hindex : ch.inflightReqQueue.headId + (k - ch.log.returned.length) = k := by
          rw [h.head]
          omega
        rwa [hindex] at hdone
    exact ⟨hanswer.usrCtx, hanswer.reported⟩
  · change q'.headId = (ch.log.returned ++ results).length
    rw [hhead, h.head, length_append]
  · intro p hp
    have hwait := h.waits p hp
    obtain ⟨k, hnumber, hnone⟩ := hwait.entry
    have hge : results.length ≤ k := by
      by_contra hlt
      have hsome := htaken k _ (getElem?_eq_getElem (Nat.lt_of_not_le hlt))
      rw [hnone] at hsome
      cases hsome
    refine ⟨hwait.slot, ⟨k - results.length, ?_, ?_⟩, hwait.ringId, hwait.usrCtx⟩
    · change p.number = q'.headId + (k - results.length)
      omega
    · rw [getElem?_drop, Nat.add_sub_cancel' hge]
      exact hnone
  · intro k r hk
    rw [getElem?_drop] at hk
    have hdone := h.done _ r hk
    change IsAnswer _ (q'.headId + k) r
    rw [hhead, Nat.add_assoc]
    exact ⟨hdone.usrCtx, hdone.reported⟩

lemma KaeInv.slot_eq (h : KaeInv ch ps xs) : ch.slot = ch.log.accepted.length % maxKaeConcurrency := by
  unfold slot
  rw [h.reqId]
  have hmask : maxKaeConcurrency - 1 = 2 ^ 10 - 1 := rfl
  rw [hmask, Nat.and_two_pow_sub_one_eq_mod]
  change _ = _ % 2 ^ 10
  exact Nat.mod_mod_of_dvd _ (by norm_num)

lemma KaeInv.slot_free (h : KaeInv ch ps xs) (hroom : ch.inflightReqQueue.isFull = false) (hp : p ∈ ps) :
    p.slot ≠ ch.slot := by
  have hlt := Waits.number_lt h hp
  have hwindow : xs.length ≠ maxKaeConcurrency := by
    intro hfull
    have := h.queue.isFull_iff.mpr (by rw [h.size, hfull])
    rw [hroom] at this
    cases this
  have hle := h.queue.room
  rw [h.size] at hle
  have hlen := h.length_add
  rw [(h.waits p hp).slot, h.slot_eq]
  unfold maxKaeConcurrency at *
  omega

lemma KaeInv.prepare (h : KaeInv ch ch.pending xs) (hroom : ch.inflightReqQueue.isFull = false) (compress : Bool)
    (args : KaeArgs) : KaeInv (ch.prepare compress args) ch.pending xs := by
  have hfree : ch.slot ∉ ch.pending.map PendingOp.slot := by
    rw [mem_map]
    rintro ⟨p, hp, hslot⟩
    exact h.slot_free hroom hp hslot
  refine { h with delivered := ⟨?_, ?_, h.delivered.numbered, h.delivered.pushed⟩, waits := ?_, done := ?_ }
  · intro k r hk
    have hanswer := h.delivered.inOrder k r hk
    exact ⟨hanswer.usrCtx, hanswer.reported⟩
  · change ch.log.overwritten ++ _ = []
    rw [if_neg hfree, h.delivered.kept]
    rfl
  · intro p hp
    have hwait := h.waits p hp
    have hkeep : (ch.prepare compress args).reqContextPool p.slot = ch.reqContextPool p.slot :=
      update_of_ne (h.slot_free hroom hp) _ _
    refine ⟨hwait.slot, hwait.entry, ?_, ?_⟩
    · rw [hkeep]
      exact hwait.ringId
    · rw [hkeep]
      exact hwait.usrCtx
  · intro k r hk
    have hanswer := h.done k r hk
    exact ⟨hanswer.usrCtx, hanswer.reported⟩

lemma IsAnswer.append {log : KaeLog} {k : Nat} (h : IsAnswer log k r) (ctx : Nat) (ids : List Int) :
    IsAnswer { log with accepted := log.accepted ++ [ctx], ringIds := ids } k r where
  usrCtx := by
    have hlt := (List.getElem?_eq_some_iff.mp h.usrCtx).1
    change (log.accepted ++ [ctx])[k]? = some r.ctx
    rw [getElem?_append_left hlt]
    exact h.usrCtx
  reported := h.reported

lemma KaeInv.accept (h : KaeInv ch ps xs) (hroom : ch.inflightReqQueue.isFull = false) {ctx slot : Nat}
    (hslot : slot = ch.slot) (hctx : (ch.reqContextPool slot).usrCtx = ctx) (compress : Bool) :
    KaeInv (ch.accept compress ctx slot) (ps ++ [⟨slot, ch.log.accepted.length⟩]) (xs ++ [none]) := by
  obtain ⟨hnew, hqueue⟩ := h.queue.newReq hroom
  have hnumber : ((ch.inflightReqQueue.headId + xs.length : Nat) : Int) = ch.log.accepted.length := by
    rw [h.length_add]
  rw [hnumber] at hnew
  have hch : ch.accept compress ctx slot =
      { ch.setSess compress (ch.sess compress ++ [⟨slot, ch.log.accepted.length⟩]) with
        reqId := (ch.reqId + 1) % 2 ^ 64
        inflightNum := ch.inflightNum + 1
        inflightReqQueue := { ch.inflightReqQueue with tailId := ch.inflightReqQueue.tailId + 1 }
        reqContextPool := Function.update ch.reqContextPool slot
          { ch.reqContextPool slot with reqRingId := ch.log.accepted.length }
        log :=
          { ch.log with
            accepted := ch.log.accepted ++ [ctx]
            ringIds := ch.log.ringIds ++ [(ch.log.accepted.length : Int)] } } := by
    unfold KaeCodecChannel.accept
    rw [hnew]
    cases compress
    · rfl
    · rfl
  rw [hch]
  refine
    { delivered := ⟨?_, h.delivered.kept, ?_, h.delivered.pushed⟩
      queue := hqueue
      size := h.size
      head := h.head
      tail := ?_
      reqId := ?_
      nodup := ?_
      waits := ?_
      done := ?_ }
  · intro k r hk
    exact (h.delivered.inOrder k r hk).append _ _
  · intro id hid
    change id ∈ ch.log.ringIds ++ [(ch.log.accepted.length : Int)] at hid
    rw [mem_append, mem_singleton] at hid
    rcases hid with hid | rfl
    · exact h.delivered.numbered id hid
    · omega
  · change ch.inflightReqQueue.tailId + 1 = (ch.log.accepted ++ [_]).length
    rw [length_append, h.tail]
    rfl
  · change (ch.reqId + 1) % 2 ^ 64 = (ch.log.accepted ++ [_]).length % 2 ^ 64
    rw [length_append, h.reqId, Nat.mod_add_mod]
    rfl
  · rw [map_append, nodup_append]
    refine ⟨h.nodup, nodup_singleton _, ?_⟩
    intro n hn m hm
    obtain ⟨p, hp, rfl⟩ := List.mem_map.mp hn
    have hlt := (Waits.number_lt h hp).2
    rw [map_singleton, mem_singleton] at hm
    dsimp only at hm
    omega
  · intro p hp
    rw [mem_append, mem_singleton] at hp
    rcases hp with hp | rfl
    · have hwait := h.waits p hp
      have hlt := (Waits.number_lt h hp).2
      obtain ⟨k, hk, hnone⟩ := hwait.entry
      have hne : p.slot ≠ slot := hslot ▸ h.slot_free hroom hp
      refine ⟨hwait.slot, ⟨k, hk, ?_⟩, ?_, ?_⟩
      · rw [getElem?_append_left (List.getElem?_eq_some_iff.mp hnone).1]
        exact hnone
      · dsimp only
        rw [update_of_ne hne]
        exact hwait.ringId
      · dsimp only
        rw [update_of_ne hne, getElem?_append_left hlt]
        exact hwait.usrCtx
    · refine ⟨?_, ⟨xs.length, ?_, ?_⟩, ?_, ?_⟩
      · rw [hslot]
        exact h.slot_eq
      · exact h.length_add.symm
      · simp
      · dsimp only
        rw [update_self]
      · dsimp only
        rw [update_self, hctx]
        simp
  · intro k r hk
    rw [getElem?_append] at hk
    split at hk
    · exact (h.done k r hk).append _ _
    · simp [getElem?_singleton] at hk

lemma pending_accept_perm (compress : Bool) (ctx slot : Nat) (ch : KaeCodecChannel) :
    (ch.pending ++ [PendingOp.mk slot ch.log.accepted.length]).Perm (ch.accept compress ctx slot).pending := by
  cases compress
  · change ((ch.compressSess ++ ch.decompressSess) ++ [_]).Perm (ch.compressSess ++ (ch.decompressSess ++ [_]))
    rw [append_assoc]
  · change ((ch.compressSess ++ ch.decompressSess) ++ [_]).Perm ((ch.compressSess ++ [_]) ++ ch.decompressSess)
    rw [append_assoc, append_assoc]
    exact Perm.append_left _ perm_append_comm

/-- A submission of at most 32 blocks that the limit on the requests in flight lets through
finds room in the queue of results. -/
def SubmitsWithRoom (ch : KaeCodecChannel) : KaeEvent → Prop
  | .compress args _ | .decompress args _ =>
    args.src.length ≤ vesalMaxSglNum ∧
      (ch.inflightNum = maxKaeConcurrency ∨ ch.inflightReqQueue.isFull = false)
  | .poll _ _ _ => True

instance (ch : KaeCodecChannel) : ∀ ev, Decidable (SubmitsWithRoom ch ev)
  | .compress _ _ | .decompress _ _ => inferInstanceAs (Decidable (_ ∧ (_ ∨ _)))
  | .poll _ _ _ => inferInstanceAs (Decidable True)

lemma KaeInv.submitSGLAsync (h : ∃ xs, KaeInv ch ch.pending xs)
    (hroom : ch.inflightNum = maxKaeConcurrency ∨ ch.inflightReqQueue.isFull = false) (compress : Bool)
    (args : KaeArgs) (r : KaeStatus) :
    ∃ xs, KaeInv (ch.submitSGLAsync compress args r).2 (ch.submitSGLAsync compress args r).2.pending xs := by
  unfold KaeCodecChannel.submitSGLAsync
  by_cases hargs : argsCheck args ≠ .kOk
  · rw [if_pos hargs]
    exact h
  rw [if_neg hargs]
  by_cases hbusy : ch.inflightNum = maxKaeConcurrency
  · rw [if_pos hbusy]
    exact h
  rw [if_neg hbusy]
  obtain ⟨xs, hinv⟩ := h
  have hprepared := hinv.prepare (hroom.resolve_left hbusy) compress args
  by_cases hr : r ≠ .succ
  · rw [if_pos hr]
    exact ⟨xs, hprepared⟩
  · rw [if_neg hr]
    have hctx : ((ch.prepare compress args).reqContextPool ch.slot).usrCtx = args.ctx := by
      unfold KaeCodecChannel.prepare
      dsimp only
      rw [update_self]
      rfl
    have haccepted := hprepared.accept (hroom.resolve_left hbusy) rfl hctx compress
    exact ⟨xs ++ [none], haccepted.perm (pending_accept_perm compress _ ch.slot (ch.prepare compress args))⟩

lemma KaeInv.step {ev : KaeEvent} (h : ∃ xs, KaeInv ch ch.pending xs) (hroom : SubmitsWithRoom ch ev)
    (hstep : kaeStep ch ev = .ok ch') : ∃ xs, KaeInv ch' ch'.pending xs := by
  cases ev with
  | compress args r =>
    cases hstep
    exact KaeInv.submitSGLAsync h hroom.2 true args r
  | decompress args r =>
    cases hstep
    exact KaeInv.submitSGLAsync h hroom.2 false args r
  | poll compressed decompressed maxNum =>
    cases hstep
    obtain ⟨xs, hinv⟩ := KaeInv.asyncPollingInSession false
      (decompressed.take (ch.asyncPollingInSession true (compressed.take ch.inflightNum)).inflightNum)
      (KaeInv.asyncPollingInSession true (compressed.take ch.inflightNum) h)
    exact hinv.popResults (toInt32 maxNum.toNat)

def byteArgs : KaeArgs := ⟨[0x1000], [1], 0x2000, 64, 7⟩

structure KaeLoad (ch : KaeCodecChannel) (n m : Nat) : Prop where
  size : ch.inflightReqQueue.size = maxKaeConcurrency
  head : ch.inflightReqQueue.headId = 0
  tail : ch.inflightReqQueue.tailId = n
  inflight : ch.inflightNum = m
  sess : ch.compressSess.length = m

lemma KaeLoad.compress {m : Nat} (h : KaeLoad ch n m) (hn : n < maxKaeConcurrency) (hm : m < maxKaeConcurrency) :
    KaeLoad (ch.compressSGLAsync byteArgs .succ).2 (n + 1) (m + 1) := by
  have hargs : argsCheck byteArgs = .kOk := by decide
  have hroom : ch.inflightReqQueue.isFull = false := by
    unfold InflightReqRingQueue.isFull
    rw [h.size, h.head, h.tail, beq_eq_false_iff_ne]
    omega
  have hbusy : ch.inflightNum ≠ maxKaeConcurrency := by
    rw [h.inflight]
    omega
  unfold compressSGLAsync KaeCodecChannel.submitSGLAsync
  rw [if_neg (not_not.mpr hargs), if_neg hbusy, if_neg (not_not.mpr rfl)]
  have hnew : ch.inflightReqQueue.newReq =
      ((ch.inflightReqQueue.tailId : Int), { ch.inflightReqQueue with tailId := ch.inflightReqQueue.tailId + 1 }) := by
    unfold InflightReqRingQueue.newReq
    rw [hroom]
    rfl
  have hqueue : (KaeCodecChannel.accept true byteArgs.ctx ch.slot (ch.prepare true byteArgs)).inflightReqQueue =
      { ch.inflightReqQueue with tailId := ch.inflightReqQueue.tailId + 1 } := by
    change (ch.inflightReqQueue.newReq).2 = _
    rw [hnew]
  refine ⟨?_, ?_, ?_, ?_, ?_⟩
  · rw [hqueue]
    exact h.size
  · rw [hqueue]
    exact h.head
  · rw [hqueue]
    exact congrArg (· + 1) h.tail
  · exact congrArg (· + 1) h.inflight
  · change (ch.compressSess ++ [_]).length = m + 1
    rw [length_append, h.sess]
    rfl

lemma KaeLoad.complete {m : Nat} (results : List KaezipResult) (h : KaeLoad ch n (m + results.length)) :
    KaeLoad (ch.asyncPollingInSession true results) n m := by
  induction results generalizing ch with
  | nil => exact h
  | cons result results ih =>
    unfold KaeCodecChannel.asyncPollingInSession
    cases hsess : ch.sess true with
    | nil =>
      have hlen : (ch.sess true).length = m + results.length + 1 := h.sess
      rw [hsess] at hlen
      cases hlen
    | cons p rest =>
      apply ih
      have hlen : (ch.sess true).length = m + results.length + 1 := h.sess
      rw [hsess, length_cons] at hlen
      refine ⟨h.size, h.head, h.tail, ?_, Nat.succ.inj hlen⟩
      change ch.inflightNum - 1 = _
      rw [h.inflight]
      rfl

end Vesal.Proofs
