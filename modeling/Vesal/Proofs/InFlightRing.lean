import Vesal.InFlight
import Vesal.Proofs.BufferFill

/-! # The ring of request slots -/

namespace Vesal.Proofs

open List Function Option InFlight

variable {n a b slot : Nat} {β : Type}

lemma exists_two_pow_of_and_sub_one (hn : n ≠ 0) (h : n &&& (n - 1) = 0) :
    ∃ k, n = 2 ^ k := by
  refine ⟨n.log2, ?_⟩
  have hle : 2 ^ n.log2 ≤ n := Nat.log2_self_le hn
  have hlt : n < 2 ^ (n.log2 + 1) := Nat.lt_log2_self
  by_contra hne
  -- both numbers have the top bit of `n`
  have hbit : (n &&& (n - 1)).testBit n.log2 = true := by
    rw [Nat.testBit_and, Nat.testBit_of_two_pow_le_and_two_pow_add_one_gt hle hlt,
      Nat.testBit_of_two_pow_le_and_two_pow_add_one_gt (by omega) (by omega)]
    rfl
  rw [h] at hbit
  simp at hbit

lemma exists_slotNum (size : RingSize) :
    ∃ k, size.slotNum = 2 ^ k ∧ size.maxInQatSize ≤ 2 ^ k ∧ 2 ^ k ≤ 2 * size.maxInQatSize := by
  have hpos : size.maxInQatSize ≠ 0 := Nat.pos_iff_ne_zero.mp size.pos
  unfold RingSize.slotNum nextPowerOfTwo isPowerOfTwo
  split
  · rename_i h
    have hand : size.maxInQatSize &&& (size.maxInQatSize - 1) = 0 := by
      simpa [hpos] using h
    obtain ⟨k, hk⟩ := exists_two_pow_of_and_sub_one hpos hand
    exact ⟨k, hk, hk.le, by omega⟩
  · rename_i h
    have hlog : size.maxInQatSize.log2 < 63 := by
      rw [Nat.log2_lt hpos]
      refine lt_of_le_of_ne size.le ?_
      intro heq
      rw [heq] at h
      exact h (by decide)
    have hlow := Nat.log2_self_le hpos
    refine ⟨size.maxInQatSize.log2 + 1, ?_, Nat.lt_log2_self.le, by rw [pow_succ]; omega⟩
    rw [Nat.shiftRight_eq_div_pow]
    have hsplit : (0x8000000000000000 : Nat) =
        2 ^ (size.maxInQatSize.log2 + 1) * 2 ^ (63 - size.maxInQatSize.log2 - 1) := by
      rw [← pow_add]
      have : size.maxInQatSize.log2 + 1 + (63 - size.maxInQatSize.log2 - 1) = 63 := by omega
      rw [this]
      norm_num
    rw [hsplit, Nat.mul_div_cancel _ (by positivity)]

lemma maxInQatSize_le_slotNum (size : RingSize) : size.maxInQatSize ≤ size.slotNum := by
  obtain ⟨k, hk, hle, -⟩ := exists_slotNum size
  rw [hk]
  exact hle

lemma slotOf_eq_mod (size : RingSize) (reqId : Nat) :
    size.slotOf reqId = reqId % size.slotNum := by
  obtain ⟨k, hk, -⟩ := exists_slotNum size
  rw [RingSize.slotOf, hk, Nat.and_two_pow_sub_one_eq_mod]

lemma slotOf_lt (size : RingSize) (reqId : Nat) : size.slotOf reqId < size.slotNum := by
  rw [slotOf_eq_mod]
  exact Nat.mod_lt _ (lt_of_lt_of_le size.pos (maxInQatSize_le_slotNum size))

lemma slotOf_inj (size : RingSize) (hab : a ≤ b) (hlt : b < a + size.slotNum) (h : size.slotOf a = size.slotOf b) :
    a = b := by
  rw [slotOf_eq_mod, slotOf_eq_mod] at h
  have hmod : (b - a) % size.slotNum = 0 := Nat.sub_mod_eq_zero_of_mod_eq h.symm
  rw [Nat.mod_eq_of_lt (by omega)] at hmod
  omega

lemma nodup_slots (size : RingSize) (first n : Nat) (h : n ≤ size.slotNum) :
    ((range' first n).map size.slotOf).Nodup := by
  refine Nodup.map_on ?_ nodup_range'
  intro a ha b hb hslot
  rw [mem_range'_1] at ha hb
  rcases Nat.le_total a b with hab | hab
  · exact slotOf_inj size hab (by omega) hslot
  · exact (slotOf_inj size hab (by omega) hslot.symm).symm

variable {π κ : Type} [CallbackContext κ]

structure TimerOf (size : RingSize) (s : InFlight π κ) (t : TimeoutContext Nat) (reqId : Nat) : Prop where
  slot : t.timerArg = size.slotOf reqId
  reqId : (s.metas t.timerArg).reqId = reqId
  valid : (s.metas t.timerArg).valid = true
  timerCtx : (s.metas t.timerArg).timerCtx = t.id

/-- `ts` are the timers of the requests in flight. While timers fire these are more than the
timer manager holds, so they are an argument of their own. -/
structure Ring (size : RingSize) (s : InFlight π κ) (ts : List (TimeoutContext Nat)) : Prop where
  hw_le : s.hw.length ≤ s.nextReqId
  hw_le_inQatNum : s.hw.length ≤ s.inQatNum
  inQatNum_le : s.inQatNum ≤ size.maxInQatSize
  ts_le : ts.length ≤ s.hw.length
  timer : ∀ k t, ts[k]? = some t → TimerOf size s t (s.nextReqId - ts.length + k)
  valid : ∀ slot, (s.metas slot).valid = true → ∃ t ∈ ts, t.timerArg = slot
  cb : ∀ k c, s.hw[k]? = some c → CallbackContext.owner (s.cbs c) = true ∧
    CallbackContext.reqId (s.cbs c) = s.nextReqId - s.hw.length + k
  cb_lt : ∀ c ∈ s.hw, c < s.nextCb
  pool_lt : ∀ slot < size.slotNum, s.cbPool slot < s.nextCb
  pool_inj : ∀ a < size.slotNum, ∀ b < size.slotNum, s.cbPool a = s.cbPool b → a = b
  pooled : ∀ k c, s.hw[k]? = some c → s.hw.length ≤ k + ts.length →
    s.cbPool (size.slotOf (s.nextReqId - s.hw.length + k)) = c
  discarded : ∀ k c, s.hw[k]? = some c → k + ts.length < s.hw.length →
    ∀ slot < size.slotNum, s.cbPool slot ≠ c

/-- Between two calls the timer manager holds exactly these timers. -/
abbrev Standing (size : RingSize) (s : InFlight π κ) : Prop := Ring size s s.timers.timers

variable {size : RingSize} {s s' : InFlight π κ} {ts : List (TimeoutContext Nat)}

variable {t : TimeoutContext Nat} {c : Nat} {hw : List Nat}

omit [CallbackContext κ] in
lemma TimerOf.congr {reqId : Nat} (h : TimerOf size s t reqId) (hmeta : s'.metas t.timerArg = s.metas t.timerArg) :
    TimerOf size s' t reqId :=
  ⟨h.slot, by rw [hmeta]; exact h.reqId, by rw [hmeta]; exact h.valid,
    by rw [hmeta]; exact h.timerCtx⟩

lemma ring_init (firstReqId timeoutTs freeTimeoutTs : Nat) (info : π) (cbs : Nat → κ)
    (pool : PoolState) : Ring size (init size firstReqId timeoutTs freeTimeoutTs info cbs pool) [] where
  hw_le := Nat.zero_le _
  hw_le_inQatNum := Nat.le_refl _
  inQatNum_le := Nat.zero_le _
  ts_le := Nat.le_refl _
  timer := by simp
  valid := by simp [init]
  cb := by simp [init]
  cb_lt := by simp [init]
  pool_lt := fun _ h => h
  pool_inj := fun _ _ _ _ h => h
  pooled := by simp [init]
  discarded := by simp [init]

lemma Ring.congr (h : Ring size s ts) (hnext : s'.nextReqId = s.nextReqId)
    (hnum : s'.inQatNum = s.inQatNum) (hmetas : s'.metas = s.metas) (hcbs : s'.cbs = s.cbs)
    (hpool : s'.cbPool = s.cbPool) (hcb : s'.nextCb = s.nextCb) (hhw : s'.hw = s.hw) :
    Ring size s' ts := by
  cases s
  cases s'
  subst hnext hnum hmetas hcbs hpool hcb hhw
  exact ⟨h.hw_le, h.hw_le_inQatNum, h.inQatNum_le, h.ts_le,
    fun k t ht => (h.timer k t ht).congr rfl, h.valid, h.cb, h.cb_lt, h.pool_lt, h.pool_inj, h.pooled, h.discarded⟩

lemma Ring.takeDue (h : Ring size s s.timers.timers) (now : Nat) :
    Ring size { s with timers := s.timers.handleTimeout now }
      (s.timers.due now ++ (s.timers.handleTimeout now).timers) := by
  rw [s.timers.due_append_handleTimeout now]
  exact h.congr rfl rfl rfl rfl rfl rfl rfl

section

variable (h : Ring size s ts)
include h

lemma Ring.requests_eq :
    s.hw.map (fun c => CallbackContext.reqId (s.cbs c)) = range' (s.nextReqId - s.hw.length) s.hw.length := by
  apply ext_getElem?
  intro k
  rw [getElem?_map]
  cases hk : s.hw[k]? with
  | none =>
    rw [getElem?_eq_none_iff] at hk
    rw [map_none, eq_comm, getElem?_eq_none_iff, length_range']
    exact hk
  | some c =>
    obtain ⟨hlt, -⟩ := List.getElem?_eq_some_iff.mp hk
    rw [map_some, (h.cb k c hk).2, getElem?_range' hlt, Nat.one_mul]

lemma Ring.exists_index (ht : t ∈ ts) :
    ∃ k < ts.length, ts[k]? = some t ∧ TimerOf size s t (s.nextReqId - ts.length + k) := by
  obtain ⟨k, hk, hget⟩ := List.mem_iff_getElem.mp ht
  have hget' : ts[k]? = some t := List.getElem?_eq_some_iff.mpr ⟨hk, hget⟩
  exact ⟨k, hk, hget', h.timer k t hget'⟩

lemma Ring.slotOf_inj (ha : s.nextReqId - s.hw.length ≤ a) (hab : a ≤ b) (hb : b < s.nextReqId)
    (hslot : size.slotOf a = size.slotOf b) : a = b := by
  have hslots := maxInQatSize_le_slotNum size
  have hle := h.hw_le_inQatNum
  have hmax := h.inQatNum_le
  exact Proofs.slotOf_inj size hab (by omega) hslot

section

variable (hroom : s.inQatNum < size.maxInQatSize)
include hroom

lemma Ring.slot_free :
    ∀ t ∈ ts, t.timerArg ≠ size.slotOf s.nextReqId := by
  intro t ht heq
  obtain ⟨k, hk, -, htimer⟩ := h.exists_index ht
  have hslots := maxInQatSize_le_slotNum size
  have hle := h.hw_le_inQatNum
  have hts := h.ts_le
  have hhw := h.hw_le
  have hsame := Proofs.slotOf_inj size (a := s.nextReqId - ts.length + k) (b := s.nextReqId)
    (by omega) (by omega) (by rw [← htimer.slot, heq])
  omega

lemma Ring.next_invalid :
    (s.metas (size.slotOf s.nextReqId)).valid = false := by
  rw [← Bool.not_eq_true]
  intro hvalid
  obtain ⟨t, ht, hslot⟩ := h.valid _ hvalid
  exact h.slot_free hroom t ht hslot

lemma Ring.next_cb_free :
    s.cbPool (size.slotOf s.nextReqId) ∉ s.hw := by
  intro hmem
  obtain ⟨k, hk, hget⟩ := mem_iff_getElem.mp hmem
  have hget' := getElem?_eq_some_iff.mpr ⟨hk, hget⟩
  have hslots := maxInQatSize_le_slotNum size
  have hle := h.hw_le_inQatNum
  have hhw := h.hw_le
  by_cases hlive : s.hw.length ≤ k + ts.length
  · have hpool := h.pooled k _ hget' hlive
    have hslot := h.pool_inj _ (slotOf_lt size _) _ (slotOf_lt size _) hpool
    have hsame := Proofs.slotOf_inj size (a := s.nextReqId - s.hw.length + k) (b := s.nextReqId)
      (by omega) (by omega) hslot
    omega
  · exact h.discarded k _ hget' (by omega) _ (slotOf_lt size _) rfl

end

lemma Ring.setMeta {m : RequestMeta π} (hslot : ∀ t ∈ ts, t.timerArg ≠ slot) (hm : m.valid = false) :
    Ring size (s.setMeta slot m) ts where
  hw_le := h.hw_le
  hw_le_inQatNum := h.hw_le_inQatNum
  inQatNum_le := h.inQatNum_le
  ts_le := h.ts_le
  timer k t ht := by
    have hne := hslot t (mem_of_getElem? ht)
    exact (h.timer k t ht).congr (update_of_ne hne _ _)
  valid a ha := by
    by_cases heq : a = slot
    · subst heq
      simp [setMeta, hm] at ha
    · simp only [InFlight.setMeta, update_of_ne heq] at ha
      exact h.valid a ha
  cb := h.cb
  cb_lt := h.cb_lt
  pool_lt := h.pool_lt
  pool_inj := h.pool_inj
  pooled := h.pooled
  discarded := h.discarded

lemma Ring.setCb (hc : c ∉ s.hw) (cb : κ) :
    Ring size (s.setCb c cb) ts where
  hw_le := h.hw_le
  hw_le_inQatNum := h.hw_le_inQatNum
  inQatNum_le := h.inQatNum_le
  ts_le := h.ts_le
  timer k t ht := (h.timer k t ht).congr rfl
  valid := h.valid
  cb k a ha := by
    have hne : a ≠ c := by
      intro heq
      exact hc (heq ▸ mem_of_getElem? ha)
    simp only [InFlight.setCb, update_of_ne hne]
    exact h.cb k a ha
  cb_lt := h.cb_lt
  pool_lt := h.pool_lt
  pool_inj := h.pool_inj
  pooled := h.pooled
  discarded := h.discarded

end

variable (dev : DmaUnit)

omit [CallbackContext κ] in
lemma returnBuf_eq (buf : Option QatBuf) (s : InFlight π κ) :
    ∃ bufs pool, s.returnBuf dev buf = { s with bufs := bufs, pool := pool } := by
  cases buf with
  | none => exact ⟨s.bufs, s.pool, rfl⟩
  | some b => exact ⟨_, _, rfl⟩

omit [CallbackContext κ] in
lemma returnBuf_released (buf : Option QatBuf) (h : (s.bufs, s.pool) = (s'.bufs, s'.pool)) :
    ((s.returnBuf dev buf).bufs, (s.returnBuf dev buf).pool) =
      ((s'.returnBuf dev buf).bufs, (s'.returnBuf dev buf).pool) := by
  rw [Prod.mk.injEq] at h
  cases buf with
  | none => simp only [returnBuf, h]
  | some b => simp only [returnBuf, h]

/-- The blocks of the pool that a buffer of a context holds. -/
def heldBlocks : Option QatBuf → List Nat
  | none => []
  | some b => if dev.svmEnabled then [] else copiedPtrs b b.numBuffers

/-- The buffers of a context are back in the cache without an entry, and their blocks are free. -/
structure BuffersBack (dev : DmaUnit) (held : List (Option QatBuf)) (bufs bufs' : List QatBuf) (pool pool' : PoolState) :
    Prop where
  cache : ∃ back, bufs' = back ++ bufs ∧ back.length = held.reduceOption.length ∧ ∀ b ∈ back, b.numBuffers = 0
  free : pool'.allocated = releaseAll (held.flatMap (heldBlocks dev)) pool.allocated
  mem : pool'.mem = pool.mem

omit [CallbackContext κ] in
lemma BuffersBack.returnBuf {dev : DmaUnit} {held : List (Option QatBuf)} {bufs : List QatBuf} {pool : PoolState}
    (h : BuffersBack dev held bufs s.bufs pool s.pool) (buf : Option QatBuf) :
    BuffersBack dev (held ++ [buf]) bufs (s.returnBuf dev buf).bufs pool (s.returnBuf dev buf).pool := by
  obtain ⟨back, hbufs, hlen, hempty⟩ := h.cache
  cases buf with
  | none =>
    refine ⟨⟨back, hbufs, ?_, hempty⟩, ?_, h.mem⟩
    · rw [reduceOption_append, length_append]
      exact hlen
    · rw [flatMap_append]
      exact h.free.trans (by simp [heldBlocks])
  | some b =>
    refine ⟨⟨(freeDataIfNecessary dev b s.pool).1 :: back, ?_, ?_, ?_⟩, ?_, ?_⟩
    · exact congrArg _ hbufs
    · rw [length_cons, hlen, reduceOption_append, length_append]
      rfl
    · exact forall_mem_cons.mpr ⟨freeDataIfNecessary_numBuffers dev b s.pool, hempty⟩
    · change (freeDataIfNecessary dev b s.pool).2.allocated = _
      unfold releaseAll
      rw [flatMap_append, foldl_append]
      cases hsvm : dev.svmEnabled with
      | false =>
        rw [freeDataIfNecessary_allocated hsvm, h.free]
        simp [heldBlocks, hsvm, releaseAll]
      | true =>
        unfold freeDataIfNecessary
        rw [if_pos hsvm]
        simp [heldBlocks, hsvm, h.free, releaseAll]
    · exact (freeDataIfNecessary_mem dev b s.pool).trans h.mem

lemma buffersBack_resetCb (c : Nat) (s : InFlight π κ) :
    BuffersBack dev [CallbackContext.srcBuf (s.cbs c), CallbackContext.dstBuf (s.cbs c)] s.bufs (s.resetCb dev c).bufs
      s.pool (s.resetCb dev c).pool :=
  have hnone : BuffersBack dev [] s.bufs s.bufs s.pool s.pool := ⟨⟨[], rfl, rfl, nofun⟩, rfl, rfl⟩
  (hnone.returnBuf _).returnBuf _

lemma resetCb_eq (c : Nat) (s : InFlight π κ) :
    ∃ bufs pool, s.resetCb dev c =
      { s.setCb c (CallbackContext.cleared (s.cbs c)) with bufs := bufs, pool := pool } := by
  unfold resetCb
  dsimp only
  obtain ⟨bufs, pool, hsrc⟩ := returnBuf_eq dev (CallbackContext.srcBuf (s.cbs c)) s
  rw [hsrc]
  obtain ⟨bufs', pool', hdst⟩ := returnBuf_eq dev (CallbackContext.dstBuf (s.cbs c))
    { s with bufs := bufs, pool := pool }
  exact ⟨bufs', pool', by rw [hdst]; rfl⟩

lemma resetCb_proj (p : InFlight π κ → β)
    (hp : ∀ s cbs bufs pool, p { s with cbs := cbs, bufs := bufs, pool := pool } = p s) (dev : DmaUnit) (c : Nat)
    (s : InFlight π κ) : p (s.resetCb dev c) = p s := by
  obtain ⟨bufs, pool, heq⟩ := resetCb_eq dev c s
  rw [heq]
  exact hp s _ bufs pool

omit [CallbackContext κ] in
lemma foldl_proj {σ α : Type} {β : Sort*} (p : σ → β) {f : σ → α → σ} (hf : ∀ s a, p (f s a) = p s) (l : List α) (s : σ) :
    p (l.foldl f s) = p s :=
  l.foldlRecOn (motive := fun s' => p s' = p s) f rfl fun s' h a _ => (hf s' a).trans h

lemma foldl_resetCb_proj (p : InFlight π κ → β)
    (hp : ∀ s cbs bufs pool, p { s with cbs := cbs, bufs := bufs, pool := pool } = p s) (dev : DmaUnit)
    (cs : List Nat) (s : InFlight π κ) : p (cs.foldl (fun s c => s.resetCb dev c) s) = p s :=
  foldl_proj p (fun s c => resetCb_proj p hp dev c s) cs s

lemma Ring.resetCb (h : Ring size s ts) (hc : c ∉ s.hw) (dev : DmaUnit) :
    Ring size (s.resetCb dev c) ts := by
  obtain ⟨bufs, pool, heq⟩ := resetCb_eq dev c s
  rw [heq]
  exact (h.setCb hc _).congr rfl rfl rfl rfl rfl rfl rfl

omit [CallbackContext κ] in
lemma dropMeta_frame (slot : Nat) (s : InFlight π κ) :
    ∃ metas timers, s.dropMeta slot = { s with metas := metas, timers := timers } ∧
      ∀ a, (metas a).valid = true → (s.metas a).valid = true := by
  unfold dropMeta
  split
  · refine ⟨_, _, rfl, fun a ha => ?_⟩
    by_cases heq : a = slot
    · simp [heq, setMeta] at ha
    · simpa [heq, setMeta] using ha
  · exact ⟨s.metas, s.timers, rfl, fun _ ha => ha⟩

lemma cleanUpReqData_frame (slot : Option Nat) (c : Nat) (s : InFlight π κ) :
    ∃ metas timers bufs pool, s.cleanUpReqData dev slot (some c) =
        { s.setCb c (CallbackContext.cleared (s.cbs c)) with
          metas := metas, timers := timers, bufs := bufs, pool := pool } ∧
      ∀ a, (metas a).valid = true → (s.metas a).valid = true := by
  unfold cleanUpReqData
  cases slot with
  | none =>
    obtain ⟨bufs, pool, heq⟩ := resetCb_eq dev c s
    exact ⟨s.metas, s.timers, bufs, pool, heq, fun _ ha => ha⟩
  | some slot =>
    obtain ⟨metas, timers, heq, hvalid⟩ := dropMeta_frame slot s
    obtain ⟨bufs, pool, heq'⟩ := resetCb_eq dev c (s.dropMeta slot)
    refine ⟨metas, timers, bufs, pool, heq'.trans ?_, hvalid⟩
    rw [heq]
    rfl

section

variable (h : Ring size s ts)
include h

section

variable (hhw : s.hw = c :: hw)
include hhw

lemma Ring.head_reqId :
    CallbackContext.owner (s.cbs c) = true ∧
      CallbackContext.reqId (s.cbs c) = s.nextReqId - (hw.length + 1) := by
  have hcb := h.cb 0 c (by simp [hhw])
  simpa [hhw] using hcb

lemma Ring.head_not_mem :
    c ∉ hw := by
  intro hmem
  obtain ⟨k, hk, hget⟩ := mem_iff_getElem.mp hmem
  have hlater := (h.cb (k + 1) c (by simp [hhw, hk, hget])).2
  rw [(h.head_reqId hhw).2, hhw, length_cons] at hlater
  have hle := h.hw_le
  rw [hhw, length_cons] at hle
  omega

lemma Ring.head_valid (hvalid : (s.metas (size.slotOf (CallbackContext.reqId (s.cbs c)))).valid = true) :
    ∃ t ts', ts = t :: ts' ∧ ts'.length = hw.length ∧
      t.timerArg = size.slotOf (CallbackContext.reqId (s.cbs c)) := by
  obtain ⟨t, ht, hslot⟩ := h.valid _ hvalid
  obtain ⟨k, hk, hget, htimer⟩ := h.exists_index ht
  have hhead := (h.head_reqId hhw).2
  have hle := h.hw_le
  have hts := h.ts_le
  rw [hhw, length_cons] at hle hts
  have hsame := h.slotOf_inj (a := s.nextReqId - (hw.length + 1)) (b := s.nextReqId - ts.length + k)
    (by simp [hhw]) (by omega) (by omega) (by rw [← hhead, ← hslot, htimer.slot])
  have hk0 : k = 0 := by omega
  subst hk0
  cases ts with
  | nil => simp at hk
  | cons t' ts' =>
    simp only [getElem?_cons_zero, some.injEq] at hget
    subst hget
    refine ⟨t', ts', rfl, ?_, hslot⟩
    simp only [length_cons] at hsame hts
    omega

lemma Ring.head_invalid (hvalid : (s.metas (size.slotOf (CallbackContext.reqId (s.cbs c)))).valid = false) :
    ts.length ≤ hw.length := by
  by_contra hgt
  have hts := h.ts_le
  rw [hhw, length_cons] at hts
  have hlen : ts.length = hw.length + 1 := by omega
  cases ts with
  | nil => simp at hlen
  | cons t ts' =>
    have htimer := h.timer 0 t rfl
    have hslot := htimer.slot
    rw [hlen, Nat.add_zero, ← (h.head_reqId hhw).2] at hslot
    rw [← hslot, htimer.valid] at hvalid
    exact absurd hvalid (by decide)

lemma Ring.pop (hts : ts.length ≤ hw.length) :
    Ring size { s with hw := hw } ts where
  hw_le := by
    have := h.hw_le
    rw [hhw, length_cons] at this
    exact Nat.le_of_succ_le this
  hw_le_inQatNum := by
    have := h.hw_le_inQatNum
    rw [hhw, length_cons] at this
    exact Nat.le_of_succ_le this
  inQatNum_le := h.inQatNum_le
  ts_le := hts
  timer k t ht := (h.timer k t ht).congr rfl
  valid := h.valid
  cb k a ha := by
    have hcb := h.cb (k + 1) a (by simpa [hhw] using ha)
    have hle := h.hw_le
    rw [hhw, length_cons] at hcb hle
    refine ⟨hcb.1, ?_⟩
    rw [hcb.2]
    simp only
    omega
  cb_lt a ha := h.cb_lt a (by rw [hhw]; exact mem_cons_of_mem _ ha)
  pool_lt := h.pool_lt
  pool_inj := h.pool_inj
  pooled k a ha hk := by
    have hpool := h.pooled (k + 1) a (by simpa [hhw] using ha)
      (by simp only at hk; rw [hhw, length_cons]; omega)
    have hle := h.hw_le
    rw [hhw, length_cons] at hpool hle
    rw [← hpool]
    simp only
    congr 2
    omega
  discarded k a ha hk :=
    h.discarded (k + 1) a (by simpa [hhw] using ha) (by simp only at hk; rw [hhw, length_cons]; omega)

end

end

section

variable (h : Ring size s (t :: ts))
include h

lemma Ring.head_slot_ne :
    ∀ t' ∈ ts, t'.timerArg ≠ t.timerArg := by
  intro t' ht' heq
  obtain ⟨k, hk, hget⟩ := mem_iff_getElem.mp ht'
  have hfirst := h.timer 0 t rfl
  have hother := h.timer (k + 1) t' (by simp [hk, hget])
  have hts := h.ts_le
  have hhw := h.hw_le
  rw [length_cons] at hfirst hother hts
  have hsame := h.slotOf_inj (a := s.nextReqId - (ts.length + 1))
    (b := s.nextReqId - (ts.length + 1) + (k + 1)) (by omega) (by omega) (by omega)
    (by rw [← hother.slot, heq, hfirst.slot]; rfl)
  omega

def invalidated (s : InFlight π κ) (slot : Nat) : InFlight π κ :=
  s.setMeta slot { s.metas slot with valid := false }

lemma Ring.tail_timer (k : Nat) (t' : TimeoutContext Nat) (ht' : ts[k]? = some t') :
    TimerOf size (invalidated s t.timerArg) t' (s.nextReqId - ts.length + k) := by
  have hother := h.timer (k + 1) t' (by simpa using ht')
  have hmeta : (invalidated s t.timerArg).metas t'.timerArg = s.metas t'.timerArg :=
    update_of_ne (h.head_slot_ne t' (mem_of_getElem? ht')) _ _
  have hts := h.ts_le
  have hhw := h.hw_le
  rw [length_cons] at hother hts
  have hid : s.nextReqId - (ts.length + 1) + (k + 1) = s.nextReqId - ts.length + k := by omega
  rw [hid] at hother
  exact hother.congr hmeta

lemma Ring.tail_valid (slot : Nat) (hslot : ((invalidated s t.timerArg).metas slot).valid = true) :
    ∃ t' ∈ ts, t'.timerArg = slot := by
  by_cases heq : slot = t.timerArg
  · subst heq
    simp [invalidated, InFlight.setMeta] at hslot
  · simp only [invalidated, InFlight.setMeta, update_of_ne heq] at hslot
    obtain ⟨t', ht', hslot'⟩ := h.valid slot hslot
    rcases mem_cons.mp ht' with rfl | ht'
    · exact absurd hslot'.symm heq
    · exact ⟨t', ht', hslot'⟩

lemma Ring.complete (hhw : s.hw = c :: hw) (hlen : ts.length = hw.length) :
    Ring size (invalidated { s with hw := hw } t.timerArg) ts where
  hw_le := by
    have hle := h.hw_le
    rw [hhw, length_cons] at hle
    exact Nat.le_of_succ_le hle
  hw_le_inQatNum := by
    have hle := h.hw_le_inQatNum
    rw [hhw, length_cons] at hle
    exact Nat.le_of_succ_le hle
  inQatNum_le := h.inQatNum_le
  ts_le := hlen.le
  timer k t' ht' := (h.tail_timer k t' ht').congr rfl
  valid := h.tail_valid
  cb k a ha := by
    have hcb := h.cb (k + 1) a (by rw [hhw]; exact ha)
    have hle := h.hw_le
    rw [hhw, length_cons] at hcb hle
    have hid : s.nextReqId - (hw.length + 1) + (k + 1) = s.nextReqId - hw.length + k := by omega
    rw [hid] at hcb
    exact hcb
  cb_lt a ha := h.cb_lt a (by rw [hhw]; exact mem_cons_of_mem _ ha)
  pool_lt := h.pool_lt
  pool_inj := h.pool_inj
  pooled k a ha _ := by
    have hpool := h.pooled (k + 1) a (by rw [hhw]; exact ha)
      (by rw [hhw, length_cons, length_cons, hlen]; omega)
    have hle := h.hw_le
    rw [hhw, length_cons] at hpool hle
    have hid : s.nextReqId - (hw.length + 1) + (k + 1) = s.nextReqId - hw.length + k := by omega
    rw [hid] at hpool
    exact hpool
  discarded k a _ hk := by
    have hk' : k + ts.length < hw.length := hk
    omega

end

omit [CallbackContext κ] in
lemma interceptInflightReq_eq (newCb : κ → κ) (slot : Nat) (s : InFlight π κ) :
    s.interceptInflightReq size newCb slot =
      { invalidated s (size.slotOf (s.metas slot).reqId) with
        cbs := Function.update s.cbs s.nextCb (newCb (s.cbs (s.cbPool (size.slotOf (s.metas slot).reqId))))
        cbPool := Function.update s.cbPool (size.slotOf (s.metas slot).reqId) s.nextCb
        nextCb := s.nextCb + 1
        discardedCbCtxs := s.discardedCbCtxs ++ [s.cbPool (size.slotOf (s.metas slot).reqId)] } := rfl

lemma Ring.intercept (h : Ring size s (t :: ts)) (newCb : κ → κ) :
    Ring size (s.interceptInflightReq size newCb t.timerArg) ts := by
  have hfirst := h.timer 0 t rfl
  have hslot : size.slotOf (s.metas t.timerArg).reqId = t.timerArg := by
    rw [hfirst.reqId, hfirst.slot]
  have hlt : t.timerArg < size.slotNum := hslot ▸ slotOf_lt size _
  have hts := h.ts_le
  have hhw := h.hw_le
  rw [length_cons] at hts
  rw [interceptInflightReq_eq, hslot]
  refine
    { hw_le := h.hw_le
      hw_le_inQatNum := h.hw_le_inQatNum
      inQatNum_le := h.inQatNum_le
      ts_le := Nat.le_of_succ_le h.ts_le
      timer := fun k t' ht' => (h.tail_timer k t' ht').congr rfl
      valid := h.tail_valid
      cb := ?_
      cb_lt := fun c hc => Nat.lt_succ_of_lt (h.cb_lt c hc)
      pool_lt := ?_
      pool_inj := ?_
      pooled := ?_
      discarded := ?_ }
  · intro k c hc
    have hcb := h.cb k c hc
    have hne : c ≠ s.nextCb := Nat.ne_of_lt (h.cb_lt c (mem_of_getElem? hc))
    rw [← update_of_ne hne (newCb (s.cbs (s.cbPool t.timerArg))) s.cbs] at hcb
    exact hcb
  · intro slot hs
    by_cases heq : slot = t.timerArg
    · simp [heq]
    · simp only [update_of_ne heq]
      exact Nat.lt_succ_of_lt (h.pool_lt slot hs)
  · intro a ha b hb hab
    have hnew : ∀ slot < size.slotNum, s.cbPool slot ≠ s.nextCb :=
      fun slot hs => Nat.ne_of_lt (h.pool_lt slot hs)
    by_cases hat : a = t.timerArg <;> by_cases hbt : b = t.timerArg
    · rw [hat, hbt]
    · simp only [hat, update_self, update_of_ne hbt] at hab
      exact absurd hab.symm (hnew b hb)
    · simp only [hbt, update_self, update_of_ne hat] at hab
      exact absurd hab (hnew a ha)
    · simp only [update_of_ne hat, update_of_ne hbt] at hab
      exact h.pool_inj a ha b hb hab
  · intro k c hc hk
    have hk' : s.hw.length ≤ k + ts.length := hk
    have hkhw : k < s.hw.length := (List.getElem?_eq_some_iff.mp hc).1
    have hne : size.slotOf (s.nextReqId - s.hw.length + k) ≠ t.timerArg := by
      intro heq
      have hsame := h.slotOf_inj (a := s.nextReqId - (ts.length + 1))
        (b := s.nextReqId - s.hw.length + k) (by omega) (by omega) (by omega)
        (by rw [heq, hfirst.slot]; rfl)
      omega
    have hpool := h.pooled k c hc (by rw [length_cons]; omega)
    rw [← update_of_ne hne s.nextCb s.cbPool] at hpool
    exact hpool
  · intro k c hc hk slot hs
    have hk' : k + ts.length < s.hw.length := hk
    have hcne : c ≠ s.nextCb := Nat.ne_of_lt (h.cb_lt c (mem_of_getElem? hc))
    by_cases heq : slot = t.timerArg
    · simp only [heq, update_self]
      exact hcne.symm
    · simp only [update_of_ne heq]
      by_cases hlast : k + (ts.length + 1) = s.hw.length
      · -- this is the context of the request itself, which was in the slot that is replaced
        have hpool := h.pooled k c hc (by rw [length_cons]; omega)
        have hid : s.nextReqId - s.hw.length + k = s.nextReqId - (ts.length + 1) := by omega
        have hreq := hfirst.slot
        rw [length_cons, Nat.add_zero, ← hid] at hreq
        rw [← hreq] at hpool
        intro hsame
        exact heq (h.pool_inj slot hs _ hlt (hsame.trans hpool.symm))
      · exact h.discarded k c hc (by rw [length_cons]; omega) slot hs

lemma getElem?_append_singleton {α : Type} {xs : List α} {x a : α} {k : Nat}
    (h : (xs ++ [x])[k]? = some a) : xs[k]? = some a ∨ k = xs.length ∧ a = x := by
  rcases Nat.lt_or_ge k xs.length with hlt | hge
  · rw [getElem?_append_left hlt] at h
    exact Or.inl h
  · rw [getElem?_append_right hge] at h
    have hk : k - xs.length = 0 := by
      have := (List.getElem?_eq_some_iff.mp h).1
      simpa using this
    rw [hk] at h
    simp only [getElem?_cons_zero, some.injEq] at h
    exact Or.inr ⟨by omega, h.symm⟩

def newTimer (s : InFlight π κ) (now slot : Nat) : TimeoutContext Nat :=
  ⟨s.timers.nextId, now + s.timers.timeoutTs, slot⟩

lemma Ring.accept (h : Ring size s ts) (hroom : s.inQatNum < size.maxInQatSize) (now : Nat)
    (hslot : slot = size.slotOf s.nextReqId) (howner : CallbackContext.owner (s.cbs (s.cbPool slot)) = true)
    (hid : CallbackContext.reqId (s.cbs (s.cbPool slot)) = s.nextReqId) (hmeta : (s.metas slot).reqId = s.nextReqId) :
    Ring size ((s.submit (s.cbPool slot)).tagInFlight now slot) (ts ++ [newTimer s now slot]) := by
  have hhw := h.hw_le
  have hnum := h.hw_le_inQatNum
  have hts := h.ts_le
  have hfree := h.slot_free hroom
  rw [← hslot] at hfree
  have hlen : (s.hw ++ [s.cbPool slot]).length = s.hw.length + 1 := by simp
  have htlen : (ts ++ [newTimer s now slot]).length = ts.length + 1 := by simp
  have hbase : s.nextReqId + 1 - (s.hw.length + 1) = s.nextReqId - s.hw.length := by omega
  have htbase : s.nextReqId + 1 - (ts.length + 1) = s.nextReqId - ts.length := by omega
  have hlt : slot < size.slotNum := hslot ▸ slotOf_lt size _
  refine
    { hw_le := ?_
      hw_le_inQatNum := ?_
      inQatNum_le := hroom
      ts_le := ?_
      timer := ?_
      valid := ?_
      cb := ?_
      cb_lt := ?_
      pool_lt := h.pool_lt
      pool_inj := h.pool_inj
      pooled := ?_
      discarded := ?_ }
  · exact hlen.le.trans (Nat.succ_le_succ hhw)
  · exact hlen.le.trans (Nat.succ_le_succ hnum)
  · exact htlen.le.trans ((Nat.succ_le_succ hts).trans hlen.ge)
  · intro k t ht
    rw [htlen]
    change TimerOf size _ t (s.nextReqId + 1 - (ts.length + 1) + k)
    rw [htbase]
    rcases getElem?_append_singleton ht with hold | ⟨rfl, rfl⟩
    · exact (h.timer k t hold).congr
        (update_of_ne (hfree t (mem_of_getElem? hold)) _ _)
    · have hk : s.nextReqId - ts.length + ts.length = s.nextReqId := by omega
      rw [hk]
      have hnew : ((s.submit (s.cbPool slot)).tagInFlight now slot).metas slot =
          { s.metas slot with timerCtx := s.timers.nextId, valid := true } := update_self _ _ _
      exact ⟨hslot, (congrArg RequestMeta.reqId hnew).trans hmeta, congrArg RequestMeta.valid hnew,
        congrArg RequestMeta.timerCtx hnew⟩
  · intro a ha
    by_cases heq : a = slot
    · exact ⟨newTimer s now slot, by simp, heq.symm⟩
    · have hsame : ((s.submit (s.cbPool slot)).tagInFlight now slot).metas a = s.metas a :=
        update_of_ne heq _ _
      rw [hsame] at ha
      obtain ⟨t, ht, harg⟩ := h.valid a ha
      exact ⟨t, mem_append_left _ ht, harg⟩
  · intro k c hc
    change _ ∧ _ = s.nextReqId + 1 - (s.hw ++ [s.cbPool slot]).length + k
    rw [hlen, hbase]
    rcases getElem?_append_singleton hc with hold | ⟨rfl, rfl⟩
    · exact h.cb k c hold
    · refine ⟨howner, hid.trans ?_⟩
      omega
  · exact forall_mem_append.mpr ⟨h.cb_lt, forall_mem_singleton.mpr (h.pool_lt slot hlt)⟩
  · intro k c hc hk
    have hk' : s.hw.length + 1 ≤ k + (ts.length + 1) := by
      rw [← hlen, ← htlen]
      exact hk
    change s.cbPool (size.slotOf (s.nextReqId + 1 - (s.hw ++ [s.cbPool slot]).length + k)) = c
    rw [hlen, hbase]
    rcases getElem?_append_singleton hc with hold | ⟨rfl, rfl⟩
    · exact h.pooled k c hold (by omega)
    · have hk : s.nextReqId - s.hw.length + s.hw.length = s.nextReqId := by omega
      rw [hk, hslot]
  · intro k c hc hk
    have hk' : k + (ts.length + 1) < s.hw.length + 1 := by
      rw [← hlen, ← htlen]
      exact hk
    rcases getElem?_append_singleton hc with hold | ⟨rfl, rfl⟩
    · exact h.discarded k c hold (by omega)
    · omega

lemma Ring.retire (h : Ring size s []) : Ring size { s with hw := [], inQatNum := 0 } [] where
  hw_le := Nat.zero_le _
  hw_le_inQatNum := Nat.le_refl _
  inQatNum_le := Nat.zero_le _
  ts_le := Nat.le_refl _
  timer := by simp
  valid := h.valid
  cb := by simp
  cb_lt := by simp
  pool_lt := h.pool_lt
  pool_inj := h.pool_inj
  pooled := by simp
  discarded := by simp

lemma Ring.setInQatNum (h : Ring size s ts) (hn : s.hw.length ≤ n) (hle : n ≤ s.inQatNum) :
    Ring size { s with inQatNum := n } ts :=
  ⟨h.hw_le, hn, hle.trans h.inQatNum_le, h.ts_le,
    fun k t ht => (h.timer k t ht).congr rfl, h.valid, h.cb, h.cb_lt, h.pool_lt, h.pool_inj, h.pooled, h.discarded⟩

end Vesal.Proofs
