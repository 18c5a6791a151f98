import Vesal.Proofs.CypherContexts

/-! # The memory for the IVs -/

namespace Vesal.Proofs

open ChannelState Library List Function Bool

variable {cfg : CypherConfig} {st st' st'' : ChannelState}

structure KeepsIvs (st st' : ChannelState) : Prop where
  cbPool : st'.cbPool = st.cbPool
  pIv : ∀ c, (st'.cbs c).op.pIv = (st.cbs c).op.pIv
  ivBuf : st'.ivBuf = st.ivBuf

lemma KeepsIvs.refl (st : ChannelState) : KeepsIvs st st := ⟨rfl, fun _ => rfl, rfl⟩

lemma KeepsIvs.trans (h : KeepsIvs st st') (h' : KeepsIvs st' st'') : KeepsIvs st st'' where
  cbPool := h'.cbPool.trans h.cbPool
  pIv c := (h'.pIv c).trans (h.pIv c)
  ivBuf := h'.ivBuf.trans h.ivBuf

variable {c ivBuf : Nat} {run' : CypherRun} {ev : CypherEvent}

variable {cb : CypherCbContext} {evs : List Completion}

lemma KeepsIvs.update (hcbs : st'.cbs = Function.update st.cbs c cb) (hcb : cb.op.pIv = (st.cbs c).op.pIv)
    (hpool : st'.cbPool = st.cbPool) (hbuf : st'.ivBuf = st.ivBuf) :
    KeepsIvs st st' := by
  refine ⟨hpool, fun a => ?_, hbuf⟩
  rw [hcbs]
  by_cases ha : a = c
  · rw [ha, update_self]
    exact hcb
  · rw [update_of_ne ha]

lemma cyCallback_ivs {ev : Completion} (hring : Standing cfg.size st.toInFlight)
    (hhw : st.hw = c :: hw) (h : cyCallback cfg ev c (st.onInFlight fun s => { s with hw := hw }) = .ok st') :
    KeepsIvs st st' := by
  obtain ⟨⟨slot, pool, hinFlight⟩, -, -, -, hbuf⟩ := cyCallback_inFlight hring hhw h
  obtain ⟨metas, timers, bufs, pool', heq, -⟩ := cleanUpReqData_frame cfg.dev slot c
    (popped st.toInFlight hw (st.inQatNum - 1) pool)
  rw [heq] at hinFlight
  have hcbs : st'.cbs = Function.update st.cbs c (CallbackContext.cleared (st.cbs c)) := by
    rw [hinFlight]
    rfl
  have hpool : st'.cbPool = st.cbPool := by
    rw [hinFlight]
    rfl
  exact KeepsIvs.update hcbs rfl hpool hbuf

structure CallbacksKeep (cfg : CypherConfig) (st st' : ChannelState) : Prop where
  ring : Standing cfg.size st'.toInFlight
  ivs : KeepsIvs st st'

lemma CallbacksKeep.callback {ev : Completion} (h : CallbacksKeep cfg st st') (hhw : st'.hw = c :: hw)
    (hcallback : cyCallback cfg ev c (st'.onInFlight fun s => { s with hw := hw }) = .ok st'') :
    CallbacksKeep cfg st st'' :=
  ⟨(cyCallback_contexts h.ring hhw hcallback).ring, h.ivs.trans (cyCallback_ivs h.ring hhw hcallback)⟩

lemma cyPollInstance_ivs (hring : Standing cfg.size st.toInFlight)
    (h : cyPollInstance cfg evs st = .ok st') : CallbacksKeep cfg st st' :=
  cyPollInstance_keeps (fun _ _ _ _ _ hkeep hhw hcallback => hkeep.callback hhw hcallback)
    ⟨hring, KeepsIvs.refl st⟩ h

lemma uninitPolls_ivs {polls : List (List Completion)} (hring : Standing cfg.size st.toInFlight)
    (h : polls.foldlM (fun st evs => cyPollInstance cfg evs st) st = .ok st') : KeepsIvs st st' :=
  (uninitPolls_keeps (fun _ _ _ _ _ hkeep hhw hcallback => CallbacksKeep.callback hkeep hhw hcallback)
    ⟨hring, KeepsIvs.refl st⟩ h).ivs

lemma submitAsync_ivs {env : SubmitEnv} {args : CypherReqArgs} {status : StatusCode}
    (h : submitAsync cfg env args st = .ok (status, st')) : KeepsIvs st st' := by
  rcases submitAsync_cases h with ⟨-, bufs, pool, rfl⟩ | ⟨-, -, cb, bufs, pool, hpIv, rfl⟩ | ⟨-, sub, hsub⟩
  · exact ⟨rfl, fun _ => rfl, rfl⟩
  · let c := st.cbPool (cfg.size.slotOf st.nextReqId)
    let st₁ := st.onInFlight fun s => { s.setCb c cb with bufs := bufs, pool := pool }
    have hset : KeepsIvs st st₁ := KeepsIvs.update (c := c) rfl hpIv rfl rfl
    obtain ⟨metas, timers, bufs', pool', heq, -⟩ := cleanUpReqData_frame cfg.dev none c st₁.toInFlight
    have hcbs : (st₁.toInFlight.cleanUpReqData cfg.dev none (some c)).cbs =
        Function.update st₁.cbs c (CallbackContext.cleared (st₁.cbs c)) := by
      rw [heq]
      rfl
    have hpool : (st₁.toInFlight.cleanUpReqData cfg.dev none (some c)).cbPool = st₁.cbPool := by
      rw [heq]
      rfl
    have hcleared : KeepsIvs st₁ (st₁.onInFlight (·.cleanUpReqData cfg.dev none (some c))) :=
      KeepsIvs.update hcbs rfl hpool rfl
    exact hset.trans hcleared
  · obtain ⟨len, rfl⟩ := hsub.state
    have hpIv := (newCypherCallbackCtx_cb hsub.context).pIv
    exact KeepsIvs.update (c := st.cbPool (cfg.size.slotOf st.nextReqId)) rfl hpIv rfl rfl

def SlotIvs (cfg : CypherConfig) (st : ChannelState) : Prop :=
  ∀ i < cfg.size.slotNum, (st.cbs (st.cbPool i)).op.pIv = st.ivBuf + i * kIvSize

lemma KeepsIvs.slotIvs (h : KeepsIvs st st') (hslots : SlotIvs cfg st) : SlotIvs cfg st' := by
  intro i hi
  rw [h.pIv, h.cbPool, h.ivBuf]
  exact hslots i hi

lemma SlotIvs.onTimeout {t : TimeoutContext Nat} {ts : List (TimeoutContext Nat)} (h : SlotIvs cfg st)
    (hring : Ring cfg.size st.toInFlight (t :: ts)) {env : TimeoutEnv}
    (hpIv : env.pIv = st.ivBuf + t.timerArg * kIvSize) : SlotIvs cfg (onTimeout cfg env t.timerArg st) := by
  have hslot : cfg.size.slotOf (st.metas t.timerArg).reqId = t.timerArg := by
    have htimer := hring.timer 0 t rfl
    rw [htimer.reqId, htimer.slot]
  let new := replacementCb env.pIv (st.cbs (st.cbPool t.timerArg))
  have hpool : (ChannelState.onTimeout cfg env t.timerArg st).cbPool =
      Function.update st.cbPool t.timerArg st.nextCb := congrArg (Function.update st.cbPool · st.nextCb) hslot
  have hcbs : (ChannelState.onTimeout cfg env t.timerArg st).cbs = Function.update st.cbs st.nextCb new :=
    congrArg (fun i => Function.update st.cbs st.nextCb (replacementCb env.pIv (st.cbs (st.cbPool i)))) hslot
  intro i hi
  rw [hpool, hcbs]
  by_cases heq : i = t.timerArg
  · rw [heq, update_self, update_self]
    exact hpIv
  · rw [update_of_ne heq, update_of_ne (Nat.ne_of_lt (hring.pool_lt i hi))]
    exact h i hi

lemma SlotIvs.foldl_onTimeout (env : Nat → TimeoutEnv) (fired ts : List (TimeoutContext Nat)) (h : SlotIvs cfg st)
    (hring : Ring cfg.size st.toInFlight (fired ++ ts))
    (hpIv : ∀ t ∈ fired, (env t.timerArg).pIv = st.ivBuf + t.timerArg * kIvSize) :
    SlotIvs cfg (fired.foldl (fun st t => ChannelState.onTimeout cfg (env t.timerArg) t.timerArg st) st) := by
  induction fired generalizing st with
  | nil => exact h
  | cons t fired ih =>
    have hfirst := h.onTimeout hring (hpIv t mem_cons_self)
    exact ih hfirst (onTimeout_ring hring (env t.timerArg)) fun t' ht' => hpIv t' (mem_cons_of_mem t ht')

lemma SlotIvs.afterTimeouts {env : PollEnv} (h : SlotIvs cfg st)
    (hring : Standing cfg.size st.toInFlight)
    (hpIv : ∀ t ∈ st.timers.due env.now, (env.timeouts t.timerArg).pIv = st.ivBuf + t.timerArg * kIvSize) :
    SlotIvs cfg (afterTimeouts cfg env st) := by
  have h₀ : SlotIvs cfg (st.onInFlight fun s => { s with timers := s.timers.handleTimeout env.now }) := h
  have hfired := h₀.foldl_onTimeout env.timeouts _ _ (hring.takeDue env.now) hpIv
  have hfree : KeepsIvs (handleTimeout cfg env.now env.timeouts st) (Proofs.afterTimeouts cfg env st) := by
    obtain ⟨freeTimers, deleted, heq⟩ := handleFreeTimeout_eq env.freeNow
      (handleTimeout cfg env.now env.timeouts st).toInFlight
    unfold Proofs.afterTimeouts onInFlight
    dsimp only
    rw [heq]
    exact ⟨rfl, fun _ => rfl, rfl⟩
  exact hfree.slotIvs hfired

/-- The timers of the requests that the hardware does not complete in a poll: it completes the
oldest ones first, and those of them that timed out before have no timer. -/
def timersLeft (completions : List Completion) (st : ChannelState) : List (TimeoutContext Nat) :=
  st.timers.timers.drop (completions.length - (st.hw.length - st.timers.timers.length))

lemma cyPollInstance_timers (hring : Standing cfg.size st.toInFlight)
    (h : cyPollInstance cfg evs st = .ok st') : st'.timers.timers = timersLeft evs st := by
  unfold timersLeft
  induction evs generalizing st with
  | nil =>
    cases h
    rw [length_nil, Nat.zero_sub, drop_zero]
  | cons ev evs ih =>
    have hts := hring.ts_le
    unfold cyPollInstance at h
    split at h
    · rename_i hhw
      cases h
      rw [hhw, length_nil, Nat.le_zero, length_eq_zero_iff] at hts
      rw [hts, drop_nil]
    · rename_i c hw hhw
      split at h
      · cases h
      rename_i st₁ hcallback
      obtain ⟨⟨slot, pool, hinFlight⟩, hring₁, htimers, -⟩ := cyCallback_inFlight hring hhw hcallback
      have hhw₁ : st₁.hw.length = st.hw.length - 1 := by
        obtain ⟨metas, timers, bufs, pool', heq, -⟩ := cleanUpReqData_frame cfg.dev slot c
          (popped st.toInFlight hw (st.inQatNum - 1) pool)
        rw [hinFlight, heq, hhw]
        rfl
      rw [ih hring₁ h, hhw₁, htimers, drop_drop, length_drop, length_cons]
      congr 1
      omega

def timesOut (env : PollEnv) (st : ChannelState) : List (TimeoutContext Nat) :=
  (timersLeft env.completions st).takeWhile fun t => decide (t.onfiredTs ≤ env.now)

def FindsIv (run : CypherRun) : CypherEvent → Prop
  | .poll env _ => (env.status = .success ∨ env.status = .retry) →
    ∀ t ∈ timesOut env run.channel, (env.timeouts t.timerArg).pIv = run.channel.ivBuf + t.timerArg * kIvSize
  | _ => True

lemma SlotIvs.poll {env : PollEnv} {maxNum : Nat} {n : Int} {results called : List CypherResult}
    (hslots : SlotIvs cfg st) (hring : Standing cfg.size st.toInFlight)
    (h : ChannelState.poll cfg env maxNum st = .ok (n, results, called, st'))
    (hfinds : (env.status = .success ∨ env.status = .retry) →
      ∀ t ∈ timesOut env st, (env.timeouts t.timerArg).pIv = st.ivBuf + t.timerArg * kIvSize) :
    SlotIvs cfg st' ∧ st'.ivBuf = st.ivBuf := by
  obtain ⟨st₁, hpoll, hcases⟩ := poll_cases h
  have hpolled := cyPollInstance_ivs hring hpoll
  have hslots₁ := hpolled.ivs.slotIvs hslots
  rcases hcases with ⟨-, -, -, rfl⟩ | ⟨hstatus, -, -, rfl⟩
  · exact ⟨hslots₁, hpolled.ivs.ivBuf⟩
  · have hdue : st₁.timers.due env.now = timesOut env st := by
      rw [TimerManager.due, cyPollInstance_timers hring hpoll]
      rfl
    have hafter : SlotIvs cfg (Proofs.afterTimeouts cfg env st₁) := by
      apply hslots₁.afterTimeouts hpolled.ring
      rw [hdue, hpolled.ivs.ivBuf]
      exact hfinds hstatus
    refine ⟨hafter, Eq.trans ?_ hpolled.ivs.ivBuf⟩
    exact cypherHandleTimeout_proj (·.ivBuf) env.now env.timeouts (fun _ _ _ => rfl) st₁

variable {run : CypherRun}

lemma SlotIvs.step (h : SlotIvs cfg run.channel) (hkept : ContextsKept cfg run) (hopen : CypherKeepsOpen ev)
    (hfinds : FindsIv run ev) (hstep : cypherStep cfg run ev = .ok run') :
    SlotIvs cfg run'.channel ∧ run'.channel.ivBuf = run.channel.ivBuf := by
  have hkeeps : ∀ {st}, KeepsIvs run.channel st → SlotIvs cfg st ∧ st.ivBuf = run.channel.ivBuf :=
    fun hivs => ⟨hivs.slotIvs h, hivs.ivBuf⟩
  rcases cypherStep_cases hstep with ⟨env, args, status, st, rfl, -, hsubmit, rfl⟩ |
    ⟨env, maxNum, n, results, called, st, rfl, -, hpoll, rfl⟩ | ⟨algorithm, rfl, -, rfl⟩ |
    ⟨env, i, st, rfl, -, hremove, rfl⟩ | ⟨env, closed, status, st, rfl, hclose, rfl⟩ | ⟨pool, rfl, rfl⟩
  · exact hkeeps (submitAsync_ivs hsubmit)
  · exact h.poll hkept.ring hpoll hfinds
  · exact ⟨h, rfl⟩
  · obtain ⟨st₁, sessions, hpolls, rfl⟩ := removeSession_cases hremove
    have hpolled := hkeeps (uninitPolls_ivs hkept.ring hpolls)
    exact hpolled
  · obtain ⟨st₁, hpolls, ⟨-, sessions, rfl⟩ | ⟨hresult, -⟩⟩ := cypherClose_cases hkept.opened hclose
    · have hpolled := hkeeps (uninitPolls_ivs hkept.ring hpolls)
      exact hpolled
    · exact absurd hresult hopen
  · exact ⟨h, rfl⟩

structure IvsKept (cfg : CypherConfig) (ivBuf : Nat) (st : ChannelState) : Prop where
  ivBuf : st.ivBuf = ivBuf
  slots : SlotIvs cfg st
  held : ∀ c ∈ st.hw, (st.cbs c).op.pIv = st.ivBuf + cfg.size.slotOf (st.cbs c).reqId * kIvSize

lemma ivsKept_init (cfg : CypherConfig) (ivBuf : Nat) (pool : PoolState) :
    IvsKept cfg ivBuf (initCypherRun cfg ivBuf pool).channel where
  ivBuf := rfl
  slots := fun _ _ => rfl
  held := fun _ hc => absurd hc not_mem_nil

lemma IvsKept.step (h : IvsKept cfg ivBuf run.channel) (hkept : ContextsKept cfg run) (hopen : CypherKeepsOpen ev)
    (hfinds : FindsIv run ev) (hstep : cypherStep cfg run ev = .ok run') : IvsKept cfg ivBuf run'.channel := by
  obtain ⟨hslots, hbuf⟩ := h.slots.step hkept hopen hfinds hstep
  refine ⟨hbuf.trans h.ivBuf, hslots, fun c hc => ?_⟩
  rw [hbuf]
  rcases cypherStep_contexts hkept.ring hkept.opened hopen hstep with ⟨hkeeps, -⟩ | ⟨sub, env, args, hsub, -⟩
  · rw [hkeeps.cbs c hc]
    exact h.held c (hkeeps.hw.subset hc)
  · have hadds := hsub.contexts hkept.ring
    rw [hadds.hw, mem_append, mem_singleton] at hc
    rw [hadds.cbs]
    rcases hc with hold | rfl
    · rw [update_of_ne (ne_of_mem_of_not_mem hold hadds.free)]
      exact h.held c hold
    · rw [update_self, hadds.reqId, (newCypherCallbackCtx_cb hsub.context).pIv]
      exact h.slots _ (slotOf_lt cfg.size _)

lemma cypherStep_opened (hstep : cypherStep cfg run ev = .ok run') (hopened : run'.channel.closed = false) :
    run.channel.closed = false ∧ CypherKeepsOpen ev := by
  have hrun : run.channel.closed = false := by
    rw [← not_eq_true]
    intro hclosed
    have hclosed' := (cypherStep_closed hclosed hstep).1
    exact false_ne_true (hopened.symm.trans hclosed')
  refine ⟨hrun, ?_⟩
  by_contra hev
  obtain ⟨-, -, -, -, -, -, hclosed', -⟩ := cypherStep_closes hrun hev hstep
  exact false_ne_true (hopened.symm.trans hclosed')

lemma ivsKept_of_runs {pool : PoolState} (h : CypherRuns cfg FindsIv (initCypherRun cfg ivBuf pool) run) :
    run.channel.closed = false → ContextsKept cfg run ∧ IvsKept cfg ivBuf run.channel := by
  apply h.invariant (P := fun run => run.channel.closed = false →
    ContextsKept cfg run ∧ IvsKept cfg ivBuf run.channel)
  · intro _
    exact ⟨contextsKept_init cfg ivBuf pool, ivsKept_init cfg ivBuf pool⟩
  · intro run ev run' hrun hfinds hstep hopened
    obtain ⟨hopened', hopen⟩ := cypherStep_opened hstep hopened
    obtain ⟨hkept, hivs⟩ := hrun hopened'
    exact ⟨hkept.step hopen hstep, hivs.step hkept hopen hfinds hstep⟩

def ivRegion (ivBuf slot : Nat) : Extent := ⟨ivBuf + slot * kIvSize, kIvSize⟩

lemma ivRegion_disjoint (ivBuf : Nat) {i j : Nat} (h : i ≠ j) : (ivRegion ivBuf i).Disjoint (ivRegion ivBuf j) := by
  unfold Extent.Disjoint ivRegion kIvSize
  dsimp only
  omega

lemma ivRegion_within (hfit : cfg.IvsFit) (ivBuf : Nat) {i : Nat} (hi : i < cfg.size.slotNum) :
    (ivRegion ivBuf i).Within ⟨ivBuf, cfg.ivBufSize⟩ := by
  have hsize : cfg.ivBufSize = kIvSize * cfg.size.slotNum := by
    unfold CypherConfig.ivBufSize
    rw [toInt32_of_lt hfit]
    unfold CypherConfig.IvsFit at hfit
    omega
  unfold Extent.Within ivRegion
  rw [hsize]
  unfold kIvSize
  dsimp only
  omega

/-- What each context, each submission and each request in the hardware does with the memory at
`ivBuf`. -/
structure IvRegions (cfg : CypherConfig) (ivBuf : Nat) (st : ChannelState) : Prop where
  slots : ∀ i < cfg.size.slotNum, (st.cbs (st.cbPool i)).op.pIv = ivBuf + i * kIvSize
  within : ∀ i < cfg.size.slotNum, (ivRegion ivBuf i).Within ⟨ivBuf, cfg.ivBufSize⟩
  tweak : ∀ p args srcBuf dstBuf mem cb mem', p.algorithm = .kAES_XTS →
    newCypherCallbackCtx p st.nextReqId args srcBuf dstBuf (st.cbs (st.cbPool (cfg.size.slotOf st.nextReqId))) mem =
      .ok (cb, mem') →
    mem' = writeBytes mem (ivRegion ivBuf (cfg.size.slotOf st.nextReqId)).start
      (readBytes mem args.aesXtsTweak kIvSize)
  held : ∀ c ∈ st.hw, (st.cbs c).op.pIv = (ivRegion ivBuf (cfg.size.slotOf (st.cbs c).reqId)).start
  apart : (st.hw.map fun c => (⟨(st.cbs c).op.pIv, kIvSize⟩ : Extent)).Pairwise Extent.Disjoint

lemma newCypherCallbackCtx_tweak {p : CypherSessionPair} {reqId : Nat} {args : CypherReqArgs}
    {srcBuf dstBuf : QatBuf} {cb' : CypherCbContext} {mem mem' : Memory} (halgorithm : p.algorithm = .kAES_XTS)
    (h : newCypherCallbackCtx p reqId args srcBuf dstBuf cb mem = .ok (cb', mem')) :
    mem' = writeBytes mem cb.op.pIv (readBytes mem args.aesXtsTweak kIvSize) := by
  cases hopened : p.opened with
  | false =>
    unfold newCypherCallbackCtx at h
    simp [hopened] at h
  | true =>
    rw [newCypherCallbackCtx_aes halgorithm hopened] at h
    cases h
    rfl

lemma IvsKept.apart (h : IvsKept cfg ivBuf st) (hring : Standing cfg.size st.toInFlight) :
    (st.hw.map fun c => (⟨(st.cbs c).op.pIv, kIvSize⟩ : Extent)).Pairwise Extent.Disjoint := by
  -- the requests in the hardware have different slots
  have hslots : ((st.hw.map fun c => (st.cbs c).reqId).map cfg.size.slotOf).Nodup := by
    have hrequests : (st.hw.map fun c => (st.cbs c).reqId) = _ := hring.requests_eq
    rw [hrequests]
    apply nodup_slots
    exact (hring.hw_le_inQatNum.trans hring.inQatNum_le).trans (maxInQatSize_le_slotNum cfg.size)
  have hregions : (st.hw.map fun c => (⟨(st.cbs c).op.pIv, kIvSize⟩ : Extent)) =
      ((st.hw.map fun c => (st.cbs c).reqId).map cfg.size.slotOf).map (ivRegion ivBuf) := by
    rw [map_map, map_map]
    apply map_congr_left
    intro c hc
    rw [h.held c hc, h.ivBuf]
    rfl
  rw [hregions, pairwise_map]
  exact hslots.imp fun hne => ivRegion_disjoint ivBuf hne

/-- In every run in which each new context finds the IV of its slot in its memory, as long as the
channel is open. -/
theorem cypher_ivs_of_slots (cfg : CypherConfig) (hfit : cfg.IvsFit) (ivBuf : Nat) (pool : PoolState)
    (run : CypherRun) (h : CypherRuns cfg FindsIv (initCypherRun cfg ivBuf pool) run)
    (hopened : run.channel.closed = false) : IvRegions cfg ivBuf run.channel := by
  obtain ⟨hkept, hivs⟩ := ivsKept_of_runs h hopened
  have hslots := hivs.slots
  unfold SlotIvs at hslots
  rw [hivs.ivBuf] at hslots
  refine ⟨hslots, fun i hi => ivRegion_within hfit ivBuf hi, ?_, ?_, hivs.apart hkept.ring⟩
  · intro p args srcBuf dstBuf mem cb mem' halgorithm hctx
    rw [newCypherCallbackCtx_tweak halgorithm hctx, hslots _ (slotOf_lt cfg.size _)]
    rfl
  · intro c hc
    rw [hivs.held c hc, hivs.ivBuf]
    rfl

instance (run : CypherRun) : DecidablePred (FindsIv run)
  | .poll env _ => inferInstanceAs (Decidable ((env.status = .success ∨ env.status = .retry) →
    ∀ t ∈ timesOut env run.channel, (env.timeouts t.timerArg).pIv = run.channel.ivBuf + t.timerArg * kIvSize))
  | .submit _ _ | .addSession _ | .removeSession _ _ | .close _ _ | .memory _ => isTrue trivial

def encryptArgs (ctx : Nat) : CypherReqArgs :=
  ⟨[⟨16, 4096, ctx, none, by decide⟩], ⟨16, 8192, ctx, none, by decide⟩, .kEncrypt, 64, ctx, none⟩

def encryptAt (now ctx : Nat) : CypherEvent := .submit ⟨.success, now⟩ (encryptArgs ctx)

def pairConfig : CypherConfig := { aesSampleConfig with size := ⟨2, by decide, by decide⟩, size_lt := by decide }

def findingPollAt (now pIv : Nat) : CypherEvent :=
  .poll ⟨[], .success, now, fun _ => ⟨now, pIv⟩, now, fun _ => ⟨.kUnknown, 0⟩⟩ 8

/-- The first of two requests times out, and its new context finds the IV of its slot. -/
theorem cypher_ivs_of_two_slots :
    ∃ run, CypherRuns pairConfig FindsIv (initCypherRun pairConfig 16384 samplePool) run ∧
      run.channel.closed = false ∧ run.returned = [⟨.kTimeout, 7⟩] ∧ run.channel.hw = [0, 1] ∧
      run.channel.cbPool 0 = 2 ∧ IvRegions pairConfig 16384 run.channel := by
  obtain ⟨run, hruns, -, hgoal⟩ := exists_runs_of_reaches (cypherStep pairConfig)
    (initCypherRun pairConfig 16384 samplePool) [encryptAt 0 7, encryptAt 150 8, findingPollAt 200 16384]
    (fun run ev => decide (FindsIv run ev))
    (fun run => !run.channel.closed && run.returned == [⟨.kTimeout, 7⟩] && run.channel.hw == [0, 1] &&
      run.channel.cbPool 0 == 2)
    (fun _ _ h => of_decide_eq_true h) (by decide +kernel)
  simp only [and_eq_true, beq_iff_eq, not_eq_true'] at hgoal
  obtain ⟨⟨⟨hopened, hreturned⟩, hhw⟩, hpool⟩ := hgoal
  exact ⟨run, hruns, hopened, hreturned, hhw, hpool,
    cypher_ivs_of_slots pairConfig (by decide +kernel) 16384 samplePool run hruns hopened⟩

/-- After a timeout the context in the slot has whatever its memory held, and the next request
writes its tweak there. -/
theorem timeout_loses_iv :
    ∃ run, runCypher aesSampleConfig (initCypherRun aesSampleConfig 16384 samplePool)
        [encryptAt 0 7, findingPollAt 200 4, cypherPollAt 201 [hashCompletion], encryptAt 202 8] = .ok run ∧
      run.channel.closed = false ∧ run.returned = [⟨.kTimeout, 7⟩] ∧
      run.accepted = [encryptArgs 7, encryptArgs 8] ∧
      (run.channel.hw.map fun c => (run.channel.cbs c).op.pIv) = [4] ∧
      ¬ IvRegions aesSampleConfig 16384 run.channel := by
  obtain ⟨run, -, hrun, hgoal⟩ := exists_runs_of_reaches (cypherStep aesSampleConfig)
    (initCypherRun aesSampleConfig 16384 samplePool)
    [encryptAt 0 7, findingPollAt 200 4, cypherPollAt 201 [hashCompletion], encryptAt 202 8] (fun _ _ => true)
    (fun run => !run.channel.closed && run.returned == [⟨.kTimeout, 7⟩] &&
      run.accepted == [encryptArgs 7, encryptArgs 8] &&
      (run.channel.hw.map fun c => (run.channel.cbs c).op.pIv) == [4] &&
      (run.channel.cbs (run.channel.cbPool 0)).op.pIv == 4)
    (fun _ _ h => h) (by decide +kernel)
  simp only [and_eq_true, beq_iff_eq, not_eq_true'] at hgoal
  obtain ⟨⟨⟨⟨hopened, hreturned⟩, haccepted⟩, hhw⟩, hpIv⟩ := hgoal
  refine ⟨run, hrun, hopened, hreturned, haccepted, hhw, fun h => ?_⟩
  have hslot := h.slots 0 (by decide +kernel)
  rw [hpIv] at hslot
  exact absurd hslot (by decide)

end Vesal.Proofs
