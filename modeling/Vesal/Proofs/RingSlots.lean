import Vesal.Proofs.CodecAnswers

/-! # The ring of request slots -/

namespace Vesal.Proofs

open EngineState List Function InFlight

variable {cfg : EngineConfig} {st st' : EngineState} {exempt : Option Nat} {called next : Nat}

def HoldsNone (cb : RequestCbContext) : Prop := cb.srcQat = none ∧ cb.dstQat = none

/-- The counters of the engine, and the contexts of the slots that are not in use. `called`
is the number of callbacks that `in_qat_num_` does not know of yet, `next` is the number of
the next request, and `exempt` is a context that is being filled or cleaned up. -/
structure Slots (cfg : EngineConfig) (exempt : Option Nat) (called next : Nat) (st : EngineState) : Prop where
  pool_lt : ∀ slot < cfg.size.slotNum, st.cbPool slot < st.nextCb
  holdsNone : ∀ slot < cfg.size.slotNum, (st.metas slot).valid = false →
    HoldsNone (st.cbs (st.cbPool slot)) ∨ exempt = some (st.cbPool slot)
  inQatNum : st.inQatNum = st.hw.length + called
  recv : st.nextRecvReqId + st.hw.length = st.nextReqId
  nextReqId : st.nextReqId = next

lemma slots_init (cfg : EngineConfig) (pool : PoolState) : Slots cfg none 0 1 (initEngine cfg pool) where
  pool_lt := fun _ hslot => hslot
  holdsNone := fun _ _ _ => Or.inl ⟨rfl, rfl⟩
  inQatNum := rfl
  recv := rfl
  nextReqId := rfl

lemma Slots.except (h : Slots cfg none called next st) (c : Nat) : Slots cfg (some c) called next st where
  pool_lt := h.pool_lt
  holdsNone slot hslot hvalid := Or.inl ((h.holdsNone slot hslot hvalid).resolve_right (by simp))
  inQatNum := h.inQatNum
  recv := h.recv
  nextReqId := h.nextReqId

variable {c : Nat} {run : CodecRun}

lemma Slots.resetCb (h : Slots cfg (some c) called next st) :
    Slots cfg none called next (st.onInFlight (·.resetCb cfg.dev c)) := by
  obtain ⟨bufs, pool, heq⟩ := resetCb_eq cfg.dev c st.toInFlight
  simp only [onInFlight, heq, InFlight.setCb]
  refine ⟨h.pool_lt, fun slot hslot hvalid => Or.inl ?_, h.inQatNum, h.recv, h.nextReqId⟩
  simp only at hvalid ⊢
  by_cases hc : st.cbPool slot = c
  · rw [hc, update_self]
    exact ⟨rfl, rfl⟩
  · rw [update_of_ne hc]
    refine (h.holdsNone slot hslot hvalid).resolve_right fun hexempt => hc ?_
    exact (Option.some.inj hexempt).symm

lemma Slots.dropMeta {slot : Nat} (h : Slots cfg (some c) called next st) (hpool : st.cbPool slot = c) :
    Slots cfg (some c) called next (st.onInFlight (·.dropMeta slot)) := by
  simp only [onInFlight, InFlight.dropMeta]
  split
  · refine ⟨h.pool_lt, fun slot' hslot' hvalid => ?_, h.inQatNum, h.recv, h.nextReqId⟩
    simp only [InFlight.setMeta] at hvalid ⊢
    by_cases hne : slot' = slot
    · exact Or.inr (congrArg some (hne ▸ hpool).symm)
    · rw [update_of_ne hne] at hvalid
      exact h.holdsNone slot' hslot' hvalid
  · exact h

lemma Slots.intercept (h : Slots cfg exempt called next st) (code : StatusCode) (slot : Nat) :
    Slots cfg exempt called next (EngineState.interceptInflightReq cfg code slot st) := by
  simp only [EngineState.interceptInflightReq, onInFlight, pushResult, interceptInflightReq_eq, invalidated,
    InFlight.setMeta]
  generalize cfg.size.slotOf (st.metas slot).reqId = a
  refine ⟨fun slot' hslot' => ?_, fun slot' hslot' hvalid => ?_, h.inQatNum, h.recv, h.nextReqId⟩
  · by_cases hne : slot' = a
    · simp only [hne, update_self]
      exact Nat.lt_succ_self _
    · simp only [update_of_ne hne]
      exact Nat.lt_succ_of_lt (h.pool_lt slot' hslot')
  · by_cases hne : slot' = a
    · -- the context that takes the place in the slot is new
      simp only [hne, update_self]
      exact Or.inl ⟨rfl, rfl⟩
    · simp only [update_of_ne hne] at hvalid ⊢
      rw [update_of_ne (h.pool_lt slot' hslot').ne]
      exact h.holdsNone slot' hslot' hvalid

lemma Slots.handleTimeout (h : Slots cfg exempt called next st) (now : Nat) (clock : Nat → Nat) :
    Slots cfg exempt called next (EngineState.handleTimeout cfg now clock st) := by
  refine foldlRecOn _ _ ?_ fun st h t _ => ?_
  · exact ⟨h.pool_lt, h.holdsNone, h.inQatNum, h.recv, h.nextReqId⟩
  · have hintercept := h.intercept .kTimeout t.timerArg
    exact ⟨hintercept.pool_lt, hintercept.holdsNone, hintercept.inQatNum, hintercept.recv,
      hintercept.nextReqId⟩

lemma Slots.retired (h : Slots cfg exempt called next st) (isFatal : Bool) :
    Slots cfg exempt 0 next { Proofs.retired cfg st with isFatal := isFatal } := by
  have hdrop : Slots cfg exempt called next (dropInflightReqsAndGenDummyResults cfg
      { st with codecResults := modifyAll st.codecResults .kDropped }) := by
    unfold dropInflightReqsAndGenDummyResults
    rw [TimerManager.clearAndGetUserArg, foldl_map]
    refine foldlRecOn _ _ ?_ fun st h t _ => h.intercept .kDropped t.timerArg
    exact ⟨h.pool_lt, h.holdsNone, h.inQatNum, h.recv, h.nextReqId⟩
  exact ⟨hdrop.pool_lt, hdrop.holdsNone, rfl, rfl, hdrop.nextReqId⟩

lemma Slots.handleHa (h : Slots cfg exempt 0 next st) (env : HaEnv) (i : Nat) (error : StatusCode) :
    Slots cfg exempt 0 next (EngineState.handleHa cfg env i error st).2 := by
  rcases handleHa_cases cfg env i error st with ⟨-, errorTs, heq⟩ | ⟨-, errorTs, heq⟩
  · rw [heq]
    exact ⟨h.pool_lt, h.holdsNone, h.inQatNum, h.recv, h.nextReqId⟩
  · rw [heq]
    have herror : Slots cfg exempt 0 next { st with errorTs := errorTs } :=
      ⟨h.pool_lt, h.holdsNone, h.inQatNum, h.recv, h.nextReqId⟩
    exact herror.retired _

lemma Slots.handleSubmitError (h : Slots cfg exempt 0 next st) (env : SubmitEnv) :
    Slots cfg exempt 0 next (EngineState.handleSubmitError cfg env st) := by
  unfold EngineState.handleSubmitError
  split
  · exact h.handleHa env.ha 0 env.driver
  · split
    · exact ⟨h.pool_lt, h.holdsNone, h.inQatNum, h.recv, h.nextReqId⟩
    · exact h

variable {args : CodecRequestArgs} {evs : List Completion} {env : PollEnv}

lemma Slots.prepare {ok : Bool} (h : Slots cfg none 0 next st)
    (hprepare : prepareCommonReqData cfg args st = .ok (ok, st')) :
    Slots cfg (if ok then some (st'.cbPool (cfg.size.slotOf st'.nextReqId)) else none) 0 next st' := by
  obtain ⟨m, bufs, pool, hm, hcase⟩ := prepareCommonReqData_cases hprepare
  have hvalid : ∀ slot, (Function.update st.metas (cfg.size.slotOf st.nextReqId) m slot).valid =
      (st.metas slot).valid := by
    intro slot
    by_cases hslot : slot = cfg.size.slotOf st.nextReqId
    · rw [hslot, update_self, hm]
    · rw [update_of_ne hslot]
  obtain ⟨rfl, rfl⟩ | ⟨rfl, -, -, -, cb, -, -, rfl⟩ := hcase
  · refine ⟨h.pool_lt, fun slot hslot hinvalid => ?_, h.inQatNum, h.recv, h.nextReqId⟩
    exact h.holdsNone slot hslot ((hvalid slot).symm.trans hinvalid)
  · refine ⟨h.pool_lt, fun slot hslot hinvalid => ?_, h.inQatNum, h.recv, h.nextReqId⟩
    simp only [onInFlight, InFlight.setCb, InFlight.setMeta, if_true] at hinvalid ⊢
    by_cases hcb : st.cbPool slot = st.cbPool (cfg.size.slotOf st.nextReqId)
    · exact Or.inr (congrArg some hcb.symm)
    · rw [update_of_ne hcb]
      refine Or.inl ((h.holdsNone slot hslot ?_).resolve_right (by simp))
      exact (hvalid slot).symm.trans hinvalid

lemma Slots.submit (hring : Standing cfg.size st.toInFlight) (h : Slots cfg none 0 next st)
    {env : SubmitEnv} {status : StatusCode} (hsubmit : submitAsyncRequest cfg env args st = .ok (status, st')) :
    Slots cfg none 0 (if status = .kOk then next + 1 else next) st' := by
  rcases submitAsyncRequest_cases hsubmit with ⟨hstatus, rfl⟩ | ⟨-, -, hfull, ok, st₁, hprepare, hcase⟩
  · rw [if_neg hstatus]
    exact h
  · have hroom : st.inQatNum < cfg.size.maxInQatSize := by
      simpa [qatRingFull] using hfull
    have hprep := prepareCommonReqData_prepared hprepare
    have hadv : CodecAdvances cfg False st st.timers.timers [] [] st₁ _ [] [] :=
      prepareCommonReqData_advances hring hroom False.elim hprepare
    have hroom₁ : st₁.inQatNum < cfg.size.maxInQatSize := hprep.inQatNum ▸ hroom
    have hslots := h.prepare hprepare
    rw [← hprep.nextReqId] at hcase
    rcases hcase with ⟨rfl, hstatus, rfl⟩ | ⟨rfl, -, rfl, rfl⟩ | ⟨rfl, hdriver, rfl, rfl⟩
    · -- there was no buffer or no memory for it
      have hinvalid : (st₁.metas (cfg.size.slotOf st₁.nextReqId)).valid = false := hadv.ring.next_invalid hroom₁
      rw [if_neg hstatus]
      simp only [onInFlight, cleanUpReqData, dropMeta_of_invalid hinvalid]
      exact hslots
    · -- the driver has the request, which makes its slot valid
      refine ⟨hslots.pool_lt, fun slot hslot hvalid => ?_, ?_, ?_, ?_⟩
      · simp only [onInFlight, tagInFlight, InFlight.submit, InFlight.setMeta] at hvalid ⊢
        by_cases hne : slot = cfg.size.slotOf st₁.nextReqId
        · rw [hne, update_self] at hvalid
          cases hvalid
        · rw [update_of_ne hne] at hvalid
          refine Or.inl ((hslots.holdsNone slot hslot hvalid).resolve_right fun hexempt => hne ?_)
          exact hadv.ring.pool_inj slot hslot _ (slotOf_lt _ _) (Option.some.inj hexempt).symm
      · simp only [onInFlight, tagInFlight, InFlight.submit, InFlight.setMeta, length_append,
          length_singleton, hslots.inQatNum]
      · simp only [onInFlight, tagInFlight, InFlight.submit, InFlight.setMeta, length_append,
          length_singleton]
        have hrecv := hslots.recv
        omega
      · simp only [onInFlight, tagInFlight, InFlight.submit, InFlight.setMeta, if_true,
          hslots.nextReqId]
    · rw [if_neg hdriver]
      simp only [onInFlight, cleanUpReqData,
        dropMeta_of_invalid (handleSubmitError_invalid hadv.ring hroom₁ env)]
      exact (hslots.handleSubmitError env).resetCb

variable {ev : Completion} {hw : List Nat}

lemma Slots.callback (hring : Standing cfg.size st.toInFlight) (hhw : st.hw = c :: hw)
    (h : Slots cfg none st.callbackCalledTimes next st)
    (hcallback : EngineState.callback cfg ev c (st.onInFlight fun s => { s with hw := hw }) = .ok st') :
    Slots cfg none st'.callbackCalledTimes next st' := by
  have hnum := h.inQatNum
  have hrecv := h.recv
  rw [hhw, length_cons] at hnum hrecv
  have hbase : ∀ results pool, Slots cfg (some c) (st.callbackCalledTimes + 1) next
      (calledBack (st.onInFlight fun s => { s with hw := hw }) results pool) := by
    intro results pool
    have hexcept := h.except c
    refine ⟨hexcept.pool_lt, hexcept.holdsNone, ?_, ?_, h.nextReqId⟩
    · simp only [calledBack, onInFlight]
      omega
    · simp only [calledBack, onInFlight]
      omega
  rcases callback_cases hcallback with ⟨-, pool, rfl⟩ | ⟨hvalid, pool, r, rfl, -⟩
  · exact (hbase [] pool).resetCb
  · -- the slot of the request is given back with its context
    obtain ⟨t, ts, hts, hlen, -⟩ := hring.head_valid hhw hvalid
    have hid : (st.cbs c).reqId = st.nextReqId - (hw.length + 1) := (hring.head_reqId hhw).2
    have hpool : st.cbPool (cfg.size.slotOf (st.cbs c).reqId) = c := by
      have hpooled := hring.pooled 0 c (by simp [hhw]) (by simp [hhw, hts, hlen])
      rw [hhw, length_cons, Nat.add_zero] at hpooled
      rw [hid]
      exact hpooled
    exact ((hbase [r] pool).dropMeta hpool).resetCb

lemma Slots.pollInstance (h : Slots cfg none st.callbackCalledTimes next st)
    (hring : Standing cfg.size st.toInFlight) (hpoll : EngineState.pollInstance cfg evs st = .ok st') :
    Slots cfg none st'.callbackCalledTimes next st' := by
  induction evs generalizing st with
  | nil =>
    cases hpoll
    exact h
  | cons ev evs ih =>
    unfold EngineState.pollInstance at hpoll
    split at hpoll
    · cases hpoll
      exact h
    rename_i c hw hhw
    split at hpoll
    · cases hpoll
    rename_i st₁ hcallback
    have hadv : EngineAdvances cfg False st [] [] st₁ [] [] :=
      callback_advances hring hhw hcallback False.elim
    exact ih (h.callback hring hhw hcallback) hadv.ring hpoll

lemma Slots.pollHardware (hring : Standing cfg.size st.toInFlight) (h : Slots cfg none 0 next st)
    (hpoll : EngineState.pollHardware cfg env st = .ok st') :
    Slots cfg none 0 next st' := by
  unfold EngineState.pollHardware at hpoll
  split at hpoll
  · cases hpoll
  rename_i st₁ hinstance
  cases hpoll
  let st₀ : EngineState := { st with callbackCalledTimes := 0 }
  have hstart : Slots cfg none st₀.callbackCalledTimes next st₀ :=
    ⟨h.pool_lt, h.holdsNone, h.inQatNum, h.recv, h.nextReqId⟩
  have hcalled : Slots cfg none st₁.callbackCalledTimes next st₁ := hstart.pollInstance hring hinstance
  have htimeout := hcalled.handleTimeout env.now env.clock
  have hnum : (EngineState.handleTimeout cfg env.now env.clock st₁).callbackCalledTimes =
      st₁.callbackCalledTimes := handleTimeout_proj (·.callbackCalledTimes) _ _ (fun _ _ => rfl) st₁
  let s := (EngineState.handleTimeout cfg env.now env.clock st₁).toInFlight
  obtain ⟨freeTimers, deleted, hfree⟩ := handleFreeTimeout_eq env.freeNow s
  simp only [s] at hfree
  refine ⟨?_, ?_, ?_, ?_, ?_⟩
  · simp only [onInFlight, hfree]
    exact htimeout.pool_lt
  · simp only [onInFlight, hfree]
    exact htimeout.holdsNone
  · simp only [onInFlight, hfree, hnum, htimeout.inQatNum]
    omega
  · simp only [onInFlight, hfree]
    exact htimeout.recv
  · simp only [onInFlight, hfree]
    exact htimeout.nextReqId

lemma Slots.poll {maxNum : Nat} {n : Int} {results : List CodecResult}
    (hring : Standing cfg.size st.toInFlight) (h : Slots cfg none 0 next st)
    (hpoll : EngineState.poll cfg env maxNum st = .ok (n, results, st')) : Slots cfg none 0 next st' := by
  have hpop : ∀ st, Slots cfg none 0 next st → Slots cfg none 0 next (popBufferedResults maxNum st).2 :=
    fun st h => ⟨h.pool_lt, h.holdsNone, h.inQatNum, h.recv, h.nextReqId⟩
  unfold EngineState.poll at hpoll
  split at hpoll
  · cases hpoll
    exact hpop st h
  split at hpoll
  · cases hpoll
  rename_i st₁ hhardware
  have hslots := hpop st₁ (h.pollHardware hring hhardware)
  dsimp only at hpoll
  split at hpoll
  · split at hpoll
    · cases hpoll
      exact ⟨hslots.pool_lt, hslots.holdsNone, hslots.inQatNum, hslots.recv, hslots.nextReqId⟩
    · cases hpoll
      exact hslots
  · cases hpoll
    exact pollHa_keeps (fun i error _ hs => hs.handleHa env.ha i error) _ hslots

structure SlotRun (cfg : EngineConfig) (run : CodecRun) : Prop where
  kept : Kept cfg run
  slots : Slots cfg none 0 (run.accepted.length + 1) run.engine

lemma SlotRun.step {run' : CodecRun} {ev : CodecEvent} (h : SlotRun cfg run) (hev : ∀ env, ev ≠ .close env)
    (hstep : codecStep cfg run ev = .ok run') : SlotRun cfg run' := by
  refine ⟨h.kept.step (keepsOpen_of_not_close hev) hstep, ?_⟩
  rcases codecStep_cases hstep with ⟨env, args, status, st, rfl, -, hsubmit, rfl⟩ |
    ⟨env, maxNum, n, results, st, rfl, -, hpoll, rfl⟩ | ⟨env, status, st, rfl, -⟩ | ⟨pool, rfl, rfl⟩
  · have hslots := h.slots.submit h.kept.ring hsubmit
    split at hslots
    · rename_i hok
      simp only [hok, if_true, length_append, length_singleton]
      exact hslots
    · rename_i hfail
      simp only [hfail, if_false]
      exact hslots
  · exact h.slots.poll h.kept.ring hpoll
  · exact absurd rfl (hev env)
  · exact ⟨h.slots.pool_lt, h.slots.holdsNone, h.slots.inQatNum, h.slots.recv, h.slots.nextReqId⟩

lemma slotRun_of_runs {pool : PoolState}
    (h : CodecRuns cfg (fun _ ev => ∀ env, ev ≠ .close env) (initCodecRun cfg pool) run) : SlotRun cfg run :=
  h.invariant (P := SlotRun cfg) ⟨kept_init cfg pool, slots_init cfg pool⟩
    fun _ _ _ hrun hev hstep => hrun.step hev hstep

/-- The request of the context `c` has got its result, from a timeout or because its unit was
left. The requests are numbered from 1, and get their results in this order. -/
def HasResult (run : CodecRun) (st : EngineState) (c : Nat) : Prop :=
  (st.cbs c).reqId ≤ run.returned.length + st.codecResults.length

def releasedBy (cfg : EngineConfig) (ev : Completion) (c : Nat) (st : EngineState) :
    List QatBuf × PoolState :=
  let s := { st.toInFlight with pool := { st.pool with mem := ev.mem } }
  let s := (s.returnBuf cfg.dev (st.cbs c).srcQat).returnBuf cfg.dev (st.cbs c).dstQat
  (s.bufs, s.pool)

/-- The callback of the context `c` finds an invalid slot, and does nothing but release the
buffers of the context. -/
structure OnlyReleases (cfg : EngineConfig) (ev : Completion) (c : Nat) (st st' : EngineState) : Prop where
  slot : (st.metas (cfg.size.slotOf (st.cbs c).reqId)).valid = false
  codecResults : st'.codecResults = st.codecResults
  timers : st'.timers = st.timers
  metas : st'.metas = st.metas
  released : (st'.bufs, st'.pool) = releasedBy cfg ev c st
  back : BuffersBack cfg.dev [(st.cbs c).srcQat, (st.cbs c).dstQat] st.bufs st'.bufs { st.pool with mem := ev.mem } st'.pool
  others : ∀ a, a ≠ c → st'.cbs a = st.cbs a

/-- Between two calls. `hw` are the contexts of the requests that the current unit has accepted
and not called back. -/
structure SlotsExclusive (cfg : EngineConfig) (run : CodecRun) : Prop where
  count : run.engine.inQatNum = run.engine.nextReqId - run.engine.nextRecvReqId
  window : run.engine.inQatNum ≤ cfg.size.maxInQatSize ∧ cfg.size.maxInQatSize ≤ cfg.size.slotNum
  requests : run.engine.hw.map (fun c => (run.engine.cbs c).reqId) =
    List.range' run.engine.nextRecvReqId run.engine.inQatNum
  contexts : run.engine.hw.Nodup
  slots : (run.engine.hw.map fun c => cfg.size.slotOf (run.engine.cbs c).reqId).Nodup
  owner : ∀ c ∈ run.engine.hw, ¬ HasResult run run.engine c →
    run.engine.cbPool (cfg.size.slotOf (run.engine.cbs c).reqId) = c ∧
    (run.engine.metas (cfg.size.slotOf (run.engine.cbs c).reqId)).valid = true ∧
    (run.engine.metas (cfg.size.slotOf (run.engine.cbs c).reqId)).reqId = (run.engine.cbs c).reqId
  taken : qatRingFull cfg run.engine = false →
    (run.engine.metas (cfg.size.slotOf run.engine.nextReqId)).valid = false ∧
    HoldsNone (run.engine.cbs (run.engine.cbPool (cfg.size.slotOf run.engine.nextReqId)))
  late : ∀ evs st c hw ev st', EngineState.pollInstance cfg evs { run.engine with callbackCalledTimes := 0 } =
      .ok st → st.hw = c :: hw → HasResult run st c →
    EngineState.callback cfg ev c (st.onInFlight fun s => { s with hw := hw }) = .ok st' →
    OnlyReleases cfg ev c st st'

section

variable (h : SlotRun cfg run)
include h

lemma SlotRun.reqId_eq {k : Nat} (hk : run.engine.hw[k]? = some c) :
    (run.engine.cbs c).reqId = run.engine.nextRecvReqId + k := by
  have hcb : (run.engine.cbs c).reqId = run.engine.nextReqId - run.engine.hw.length + k :=
    (h.kept.ring.cb k c hk).2
  have hrecv := h.slots.recv
  omega

lemma SlotRun.requests_eq :
    run.engine.hw.map (fun c => (run.engine.cbs c).reqId) =
      range' run.engine.nextRecvReqId run.engine.hw.length := by
  have hfirst : run.engine.nextReqId - run.engine.hw.length = run.engine.nextRecvReqId := by
    have hrecv := h.slots.recv
    omega
  rw [← hfirst]
  exact h.kept.ring.requests_eq

lemma SlotRun.results_length :
    run.returned.length + run.engine.codecResults.length + run.engine.timers.timers.length + 1 =
      run.engine.nextReqId := by
  have hlen := h.kept.ledger.length
  simp only [codecBooks, outcomes, length_map, length_append] at hlen
  have hnext := h.slots.nextReqId
  omega

lemma SlotRun.owner (hc : c ∈ run.engine.hw) (hresult : ¬ HasResult run run.engine c) :
    run.engine.cbPool (cfg.size.slotOf (run.engine.cbs c).reqId) = c ∧
      (run.engine.metas (cfg.size.slotOf (run.engine.cbs c).reqId)).valid = true ∧
      (run.engine.metas (cfg.size.slotOf (run.engine.cbs c).reqId)).reqId = (run.engine.cbs c).reqId := by
  obtain ⟨k, hk, hget⟩ := List.mem_iff_getElem.mp hc
  have hget' : run.engine.hw[k]? = some c := List.getElem?_eq_some_iff.mpr ⟨hk, hget⟩
  have hid := h.reqId_eq hget'
  have hlen := h.results_length
  have hrecv := h.slots.recv
  have hts := h.kept.ring.ts_le
  unfold HasResult at hresult
  have hlive : run.engine.hw.length ≤ k + run.engine.timers.timers.length := by omega
  have hpooled := h.kept.ring.pooled k c hget' hlive
  have hbase : run.engine.nextReqId - run.engine.hw.length + k = (run.engine.cbs c).reqId := by omega
  rw [hbase] at hpooled
  obtain ⟨t, ht⟩ : ∃ t, run.engine.timers.timers[k + run.engine.timers.timers.length -
      run.engine.hw.length]? = some t :=
    ⟨_, getElem?_eq_getElem (by omega)⟩
  have htimer := h.kept.ring.timer _ t ht
  have hsame : run.engine.nextReqId - run.engine.timers.timers.length +
      (k + run.engine.timers.timers.length - run.engine.hw.length) = (run.engine.cbs c).reqId := by omega
  rw [hsame] at htimer
  have hslot := htimer.slot
  exact ⟨hpooled, hslot ▸ htimer.valid, hslot ▸ htimer.reqId⟩

end

lemma callback_of_invalid (hinvalid : (st.metas (cfg.size.slotOf (st.cbs c).reqId)).valid = false)
    (h : EngineState.callback cfg ev c (st.onInFlight fun s => { s with hw := hw }) = .ok st') :
    OnlyReleases cfg ev c st st' := by
  unfold EngineState.callback at h
  dsimp only at h
  split at h
  · cases h
  rw [if_pos (by simpa [onInFlight] using hinvalid)] at h
  cases h
  simp only [onInFlight, cleanUpReqData]
  let s : InFlight FrameMeta RequestCbContext :=
    { st.toInFlight with hw := hw, pool := { st.pool with mem := ev.mem } }
  refine ⟨hinvalid, rfl, ?_, ?_, ?_, buffersBack_resetCb cfg.dev c s, fun a ha => ?_⟩
  · exact resetCb_proj (·.timers) (fun _ _ _ _ => rfl) cfg.dev c s
  · exact resetCb_proj (·.metas) (fun _ _ _ _ => rfl) cfg.dev c s
  · apply returnBuf_released
    apply returnBuf_released
    rfl
  · obtain ⟨bufs, pool, heq⟩ := resetCb_eq cfg.dev c s
    exact (congrArg (fun s => s.cbs a) heq).trans (update_of_ne ha _ _)

lemma SlotRun.late (h : SlotRun cfg run)
    (hpoll : EngineState.pollInstance cfg evs { run.engine with callbackCalledTimes := 0 } = .ok st)
    (hhw : st.hw = c :: hw) (hresult : HasResult run st c)
    (hcallback : EngineState.callback cfg ev c (st.onInFlight fun s => { s with hw := hw }) = .ok st') :
    OnlyReleases cfg ev c st st' := by
  let st₀ : EngineState := { run.engine with callbackCalledTimes := 0 }
  obtain ⟨hadv, -⟩ : EngineAdvances cfg False st₀ run.accepted run.returned st run.accepted run.returned ∧ _ :=
    pollInstance_advances h.kept.ring hpoll False.elim
  have hslots : Slots cfg none st₀.callbackCalledTimes (run.accepted.length + 1) st₀ :=
    ⟨h.slots.pool_lt, h.slots.holdsNone, h.slots.inQatNum, h.slots.recv, h.slots.nextReqId⟩
  have hnext := (hslots.pollInstance h.kept.ring hpoll).nextReqId
  have hlen := (h.kept.ledger.steps hadv.steps).length
  simp only [codecBooks, outcomes, length_map, length_append] at hlen
  have hring : Standing cfg.size st.toInFlight := hadv.ring
  refine callback_of_invalid ?_ hcallback
  rw [← Bool.not_eq_true]
  intro hvalid
  obtain ⟨t, ts, hts, htslen, -⟩ := hring.head_valid hhw hvalid
  have hid : (st.cbs c).reqId = st.nextReqId - (hw.length + 1) := (hring.head_reqId hhw).2
  have hle := hring.hw_le
  rw [hhw, length_cons] at hle
  rw [hts, length_cons] at hlen
  unfold HasResult at hresult
  omega

/-- In every run without `Close`, no two requests of the hardware share a slot or a callback
context. -/
theorem codec_slots_exclusive (cfg : EngineConfig) (pool : PoolState) (run : CodecRun)
    (h : CodecRuns cfg (fun _ ev => ∀ env, ev ≠ .close env) (initCodecRun cfg pool) run) :
    SlotsExclusive cfg run := by
  have hrun := slotRun_of_runs h
  have hring := hrun.kept.ring
  have hnum : run.engine.inQatNum = run.engine.hw.length := hrun.slots.inQatNum
  have hrecv := hrun.slots.recv
  have hslots : run.engine.hw.length ≤ cfg.size.slotNum :=
    hnum.symm.trans_le (hring.inQatNum_le.trans (maxInQatSize_le_slotNum cfg.size))
  have hrequests := hrun.requests_eq
  refine ⟨by omega, ⟨hring.inQatNum_le, maxInQatSize_le_slotNum cfg.size⟩, ?_, ?_, ?_, ?_, ?_, ?_⟩
  · rw [hnum]
    exact hrequests
  · apply List.Nodup.of_map (fun c => (run.engine.cbs c).reqId)
    rw [hrequests]
    exact List.nodup_range'
  · have hmap : run.engine.hw.map (fun c => cfg.size.slotOf (run.engine.cbs c).reqId) =
        (run.engine.hw.map fun c => (run.engine.cbs c).reqId).map cfg.size.slotOf := by
      rw [List.map_map]
      rfl
    rw [hmap, hrequests]
    exact nodup_slots cfg.size _ _ hslots
  · intro c hc hresult
    exact hrun.owner hc hresult
  · intro hfull
    have hroom : run.engine.inQatNum < cfg.size.maxInQatSize := by
      simpa [qatRingFull] using hfull
    have hinvalid := hring.next_invalid hroom
    exact ⟨hinvalid, (hrun.slots.holdsNone _ (slotOf_lt _ _) hinvalid).resolve_right (by simp)⟩
  · intro evs st c hw ev st' hpoll hhw hresult hcallback
    exact hrun.late hpoll hhw hresult hcallback

def roomyConfig : EngineConfig := { sampleConfig .kNone with size := ⟨5, by decide, by decide⟩ }

/-- A request has timed out, and the hardware still has it beside a later one. -/
theorem codec_slots_exclusive_after_timeout :
    ∃ run, CodecRuns roomyConfig (fun _ ev => ∀ env, ev ≠ .close env) (initCodecRun roomyConfig samplePool) run ∧
      run.engine.hw.length = 2 ∧ run.returned.map CodecResult.status = [.kTimeout] ∧
      SlotsExclusive roomyConfig run := by
  obtain ⟨run, hruns, -, hgoal⟩ := Library.exists_runs_of_reaches (codecStep roomyConfig)
    (initCodecRun roomyConfig samplePool)
    [submitAt 0 .kOk 7, pollAt 200 [] .success true, submitAt 200 .kOk 8]
    (fun _ => notClose)
    (fun run => run.engine.hw.length == 2 && run.returned.map CodecResult.status == [.kTimeout])
    (fun _ _ => ne_close_of_notClose) (by decide)
  simp only [Bool.and_eq_true, beq_iff_eq] at hgoal
  exact ⟨run, hruns, hgoal.1, hgoal.2, codec_slots_exclusive _ _ run hruns⟩

end Vesal.Proofs
