import Vesal.Proofs.CypherContexts

/-! # Delivery by the cypher channel -/

namespace Vesal.Proofs

open ChannelState List Function InFlight Library

variable {cfg : CypherConfig} {st st' : ChannelState}

def ReturnedInOrder (run : CypherRun) : Prop :=
  run.returned.map CypherResult.ctx <+: run.accepted.map CypherReqArgs.ctx

variable {run : CypherRun} {c n : Nat} {env : PollEnv}

lemma CypherKept.returnedInOrder {buffered : List CypherResult} (h : CypherKept cfg run buffered) :
    ReturnedInOrder run := by
  have hprefix := h.ledger.prefix_ctx
  have hdone : (viewOf run.channel run.accepted run.returned buffered).books.done.map Prod.snd =
      run.returned.map CypherResult.ctx ++ buffered.map CypherResult.ctx := by
    simp only [ChannelView.books, viewOf, cypherOutcomes, map_append, map_map]
    rfl
  rw [hdone] at hprefix
  exact (prefix_append _ _).trans hprefix

lemma returnedInOrder_of_runs (hfits : cfg.QueueFits) {allowed : CypherRun → CypherEvent → Prop} {ivBuf : Nat}
    {pool : PoolState} (h : CypherRuns cfg allowed (initCypherRun cfg ivBuf pool) run) :
    ReturnedInOrder run := by
  have hkept : (∃ buffered, CypherKept cfg run buffered) ∨ (run.channel.closed = true ∧ ReturnedInOrder run) := by
    refine h.invariant (P := fun run => (∃ buffered, CypherKept cfg run buffered) ∨
      (run.channel.closed = true ∧ ReturnedInOrder run)) (Or.inl ⟨[], cypherKept_init hfits ivBuf pool⟩) ?_
    intro run ev run' hrun _ hstep
    rcases hrun with ⟨buffered, hkept⟩ | ⟨hclosed, horder⟩
    · by_cases hopen : CypherKeepsOpen ev
      · exact Or.inl (hkept.step hopen hstep)
      · obtain ⟨_, _, _, -, -, -, hclosed, hrun', -⟩ := cypherStep_closes hkept.opened hopen hstep
        refine Or.inr ⟨hclosed, ?_⟩
        rw [hrun']
        exact hkept.returnedInOrder
    · obtain ⟨hclosed', hrun', -⟩ := cypherStep_closed hclosed hstep
      refine Or.inr ⟨hclosed', ?_⟩
      rw [hrun']
      exact horder
  rcases hkept with ⟨buffered, hkept⟩ | ⟨-, horder⟩
  · exact hkept.returnedInOrder
  · exact horder

def TimedOut (st : ChannelState) (c : Nat) : Prop :=
  ∀ t ∈ st.timers.timers, (st.metas t.timerArg).reqId ≠ (st.cbs c).reqId

def cypherReleasedBy (cfg : CypherConfig) (ev : Completion) (c : Nat) (st : ChannelState) : List QatBuf × PoolState :=
  let s := { st.toInFlight with pool := { st.pool with mem := ev.mem } }
  let s := (s.returnBuf cfg.dev (st.cbs c).srcBuf).returnBuf cfg.dev (st.cbs c).dstBuf
  (s.bufs, s.pool)

/-- The callback of the context `c` only releases the buffers of the context, which is no
context of another request. -/
structure LateCallback (cfg : CypherConfig) (ev : Completion) (c : Nat) (st st' : ChannelState) : Prop where
  reqRingQueue : st'.reqRingQueue = st.reqRingQueue
  timers : st'.timers = st.timers
  metas : st'.metas = st.metas
  released : (st'.bufs, st'.pool) = cypherReleasedBy cfg ev c st
  back : BuffersBack cfg.dev [(st.cbs c).srcBuf, (st.cbs c).dstBuf] st.bufs st'.bufs { st.pool with mem := ev.mem } st'.pool
  others : ∀ a, a ≠ c → st'.cbs a = st.cbs a
  alone : c ∉ st'.hw ∧ ∀ slot < cfg.size.slotNum, st.cbPool slot ≠ c

lemma TimedOut.invalid (hring : Standing cfg.size st.toInFlight) {hw : List Nat}
    (hhw : st.hw = c :: hw) (h : TimedOut st c) : (st.metas (cfg.size.slotOf (st.cbs c).reqId)).valid = false := by
  rw [← Bool.not_eq_true]
  intro hvalid
  obtain ⟨t, ts, hts, hlen, -⟩ := hring.head_valid hhw hvalid
  have htimer := hring.timer 0 t (by rw [hts]; rfl)
  refine h t (by rw [hts]; exact mem_cons_self) ?_
  rw [htimer.reqId, hts, length_cons, hlen]
  exact (hring.head_reqId hhw).2.symm

lemma late_cyCallback (hring : Standing cfg.size st.toInFlight) {ev : Completion} {hw : List Nat}
    (hhw : st.hw = c :: hw) (hlate : TimedOut st c)
    (h : cyCallback cfg ev c (st.onInFlight fun s => { s with hw := hw }) = .ok st') :
    LateCallback cfg ev c st st' := by
  have hinvalid := hlate.invalid hring hhw
  have hts := hring.head_invalid hhw hinvalid
  have hdiscarded := hring.discarded 0 c (by rw [hhw]; rfl) (by rw [hhw, length_cons]; omega)
  unfold cyCallback at h
  dsimp only at h
  split at h
  · cases h
  rw [if_pos (by simpa [onInFlight] using hinvalid)] at h
  cases h
  let s : InFlight CypherMeta CypherCbContext :=
    { st.toInFlight with hw := hw, inQatNum := st.inQatNum - 1, pool := { st.pool with mem := ev.mem } }
  refine ⟨rfl, ?_, ?_, ?_, buffersBack_resetCb cfg.dev c s, fun a ha => ?_, ?_, hdiscarded⟩
  · exact resetCb_proj (·.timers) (fun _ _ _ _ => rfl) cfg.dev c s
  · exact resetCb_proj (·.metas) (fun _ _ _ _ => rfl) cfg.dev c s
  · apply returnBuf_released
    apply returnBuf_released
    rfl
  · obtain ⟨bufs, pool, heq⟩ := resetCb_eq cfg.dev c s
    exact (congrArg (fun s => s.cbs a) heq).trans (update_of_ne ha _ _)
  · have hhw' : (s.resetCb cfg.dev c).hw = hw := resetCb_proj (·.hw) (fun _ _ _ _ => rfl) cfg.dev c s
    change c ∉ (s.resetCb cfg.dev c).hw
    rw [hhw']
    exact hring.head_not_mem hhw

structure Noted (args : CypherReqArgs) (q q' : InflightReqRingQueue CypherResult) (m : RequestMeta CypherMeta) :
    Prop where
  newReq : q.newReq = ((q.tailId : Int), q')
  valid : m.valid = true
  ringQueueId : m.info.ringQueueId = q.newReq.1
  userCtx : m.info.userCtx = args.ctx

lemma CypherSubmission.Accepted.noted {sub : CypherSubmission} {env : SubmitEnv} {args : CypherReqArgs}
    (h : sub.Accepted cfg env args st st') :
    Noted args st.reqRingQueue st'.reqRingQueue (st'.metas (cfg.size.slotOf st.nextReqId)) := by
  obtain ⟨len, rfl⟩ := h.state
  refine ⟨?_, ?_, ?_, ?_⟩
  · simp [acceptRequest, InflightReqRingQueue.newReq, onInFlight, h.room]
  · simp [acceptRequest, tagInFlight, InFlight.submit, InFlight.setMeta]
  · simp [acceptRequest, tagInFlight, InFlight.submit, InFlight.setMeta, storeRequest, onInFlight]
  · simp [acceptRequest, tagInFlight, InFlight.submit, InFlight.setMeta, storeRequest, onInFlight]

/-- Between two calls. `hw` are the contexts of the requests that were accepted and not called
back; those of a poll are called back one after the other. -/
structure CypherDelivers (cfg : CypherConfig) (run : CypherRun) : Prop where
  order : ReturnedInOrder run
  outstanding : run.channel.hw.map (fun c => (run.channel.cbs c).reqId) =
    List.range' (run.accepted.length - run.channel.hw.length) run.channel.hw.length
  own : ∀ c ∈ run.channel.hw, ∃ args, run.accepted[(run.channel.cbs c).reqId]? = some args ∧
    SubmittedAs cfg args (run.channel.cbs c)
  polls : ∀ evs, ∃ st, cyPollInstance cfg evs run.channel = .ok st ∧ st.inQatNum = st.hw.length ∧
    ∀ c hw ev, st.hw = c :: hw → TimedOut st c → ∃ st',
      cyCallback cfg ev c (st.onInFlight fun s => { s with hw := hw }) = .ok st' ∧ LateCallback cfg ev c st st'
  number : ∀ env args st, submitAsync cfg env args run.channel = .ok (.kOk, st) →
    (st.metas (cfg.size.slotOf run.channel.nextReqId)).info.ringQueueId = run.channel.reqRingQueue.newReq.1 ∧
      run.channel.reqRingQueue.newReq.1 ≠ -1

/-- In every run in which the channel is not closed, and whose queue of results has a capacity
that is an `int`. -/
theorem cypher_channel_delivers (cfg : CypherConfig) (hfits : cfg.QueueFits) (ivBuf : Nat) (pool : PoolState)
    (run : CypherRun) (h : CypherRuns cfg (fun _ ev => CypherKeepsOpen ev) (initCypherRun cfg ivBuf pool) run) :
    CypherDelivers cfg run := by
  have hkept := contextsKept_of_runs (fun _ _ hev => hev) h
  refine ⟨returnedInOrder_of_runs hfits h, hkept.next ▸ hkept.ring.requests_eq, hkept.submitted, fun evs => ?_,
    fun env args st hsubmit => ?_⟩
  · obtain ⟨st, hst⟩ := hkept.cyPollInstance_returns evs
    have hpolled := cyPollInstance_contexts hkept.ring hst
    refine ⟨st, hst, hpolled.count hkept.count, fun c hw ev hhw hlate => ?_⟩
    have hc : c ∈ st.hw := by
      rw [hhw]
      exact List.mem_cons_self
    obtain ⟨args, -, hsubmitted⟩ := hkept.submitted c (hpolled.hw.subset hc)
    obtain ⟨buf, hbuf⟩ := hsubmitted.dstBuf
    rw [← hpolled.cbs c hc] at hbuf
    obtain ⟨st', hcallback⟩ := cyCallback_returns hpolled.ring hhw hbuf ev
    exact ⟨st', hcallback, late_cyCallback hpolled.ring hhw hlate hcallback⟩
  · obtain ⟨sub, hsub⟩ := exists_cypherSubmission hsubmit
    have hnoted := hsub.noted
    refine ⟨hnoted.ringQueueId, ?_⟩
    rw [hnoted.newReq]
    have hpos := Int.natCast_nonneg run.channel.reqRingQueue.tailId
    dsimp only
    omega

instance : DecidablePred CypherKeepsOpen
  | .close env _ => inferInstanceAs (Decidable (env.result ≠ .kOk))
  | .submit _ _ | .poll _ _ | .addSession _ | .removeSession _ _ | .memory _ => isTrue trivial

def roomyCypher : CypherConfig := { cypherSampleConfig with size := ⟨3, by decide, by decide⟩, size_lt := by decide }

/-- A request has timed out, and the hardware still has it beside a later one. -/
lemma roomyCypher_runs :
    ∃ run, CypherRuns roomyCypher (fun _ ev => CypherKeepsOpen ev) (initCypherRun roomyCypher 16384 samplePool) run ∧
      run.channel.hw.length = 2 ∧ run.returned = [⟨.kTimeout, 7⟩] ∧ run.channel.inQatNum < 3 := by
  obtain ⟨run, hruns, -, hgoal⟩ := exists_runs_of_reaches (cypherStep roomyCypher)
    (initCypherRun roomyCypher 16384 samplePool) [hashAt 0 7, cypherPollAt 200 [], hashAt 200 8]
    (fun _ ev => decide (CypherKeepsOpen ev))
    (fun run => decide (run.channel.hw.length = 2 ∧ run.returned = [⟨.kTimeout, 7⟩] ∧ run.channel.inQatNum < 3))
    (fun _ _ h => of_decide_eq_true h) (by decide +kernel)
  exact ⟨run, hruns, of_decide_eq_true hgoal⟩

theorem cypher_channel_delivers_timeout :
    ∃ run, CypherRuns roomyCypher (fun _ ev => CypherKeepsOpen ev) (initCypherRun roomyCypher 16384 samplePool) run ∧
      run.channel.hw.length = 2 ∧ run.returned = [⟨.kTimeout, 7⟩] ∧ CypherDelivers roomyCypher run := by
  obtain ⟨run, hruns, hhw, hreturned, -⟩ := roomyCypher_runs
  exact ⟨run, hruns, hhw, hreturned, cypher_channel_delivers _ (by decide +kernel) _ _ run hruns⟩

/-- In every run in which the channel is not closed, also when `next_req_id_` has wrapped around. -/
theorem cypher_slots_exclusive (cfg : CypherConfig) (ivBuf : Nat) (pool : PoolState) (run : CypherRun)
    (h : CypherRuns cfg (fun _ ev => CypherKeepsOpen ev) (initCypherRun cfg ivBuf pool) run) :
    (run.channel.hw.map fun c => cfg.size.slotOf ((run.channel.cbs c).reqId % 2 ^ 32)).Nodup ∧
      (run.channel.inQatNum < cfg.size.maxInQatSize →
        run.channel.cbPool (cfg.size.slotOf (run.channel.nextReqId % 2 ^ 32)) ∉ run.channel.hw) := by
  have hring := (contextsKept_of_runs (fun _ _ hev => hev) h).ring
  simp only [slotOf_mod_uint32]
  refine ⟨?_, hring.next_cb_free⟩
  have hslots := nodup_slots cfg.size (run.channel.nextReqId - run.channel.hw.length) run.channel.hw.length
    ((hring.hw_le_inQatNum.trans hring.inQatNum_le).trans (maxInQatSize_le_slotNum cfg.size))
  rw [← hring.requests_eq, map_map] at hslots
  exact hslots

theorem cypher_slots_exclusive_pending :
    ∃ run, CypherRuns roomyCypher (fun _ ev => CypherKeepsOpen ev) (initCypherRun roomyCypher 16384 samplePool) run ∧
      run.channel.hw.length = 2 ∧
      (run.channel.hw.map fun c => roomyCypher.size.slotOf ((run.channel.cbs c).reqId % 2 ^ 32)).Nodup ∧
      run.channel.cbPool (roomyCypher.size.slotOf (run.channel.nextReqId % 2 ^ 32)) ∉ run.channel.hw := by
  obtain ⟨run, hruns, hhw, -, hroom⟩ := roomyCypher_runs
  obtain ⟨hslots, hnext⟩ := cypher_slots_exclusive _ _ _ run hruns
  exact ⟨run, hruns, hhw, hslots, hnext hroom⟩

/-- A channel for hashes that keeps one request in the hardware, with a multiplier for which
the capacity of the queue is no `int`. -/
def wideConfig : CypherConfig :=
  { cypherSampleConfig with bufferMultiplier := 2 ^ 31, queue_pos := by decide, queue_lt := by decide }

def SubmitsAndPolls : CypherEvent → Prop
  | .submit _ args => args.src.length ≤ vesalMaxSglNum
  | .poll _ maxNum => 1 ≤ maxNum ∧ maxNum < 2 ^ 32
  | _ => False

lemma SubmitsAndPolls.keepsOpen {ev : CypherEvent} (h : SubmitsAndPolls ev) : CypherKeepsOpen ev := by
  cases ev with
  | close env closed => exact h.elim
  | _ => trivial

def pollEnvOf (completions : List Completion) : PollEnv :=
  ⟨completions, .success, 0, fun _ => ⟨0, 0⟩, 0, fun _ => ⟨.kUnknown, 0⟩⟩

/-- The completion of the request in the hardware, with room for more results than an `int`
can count, so that none is taken out. -/
def pollNone : CypherEvent := .poll (pollEnvOf [hashCompletion]) (2 ^ 31)

structure Backlog (n : Nat) (st : ChannelState) : Prop where
  sessions : st.sessions = [⟨.kSHA256, true⟩]
  hw : st.hw = []
  freeTimers : st.freeTimers.timers = []
  bufs : 2 ≤ st.bufs.length
  headId : st.reqRingQueue.headId = 0
  tailId : st.reqRingQueue.tailId = n
  size : st.reqRingQueue.size = -2 ^ 31

lemma Backlog.submit (h : Backlog n st) (hnum : st.inQatNum = 0) (ctx : Nat) :
    ∃ st', submitAsync wideConfig ⟨.success, 0⟩ (hashArgs ctx) st = .ok (.kOk, st') := by
  obtain ⟨srcBuf, dstBuf, bufs, hbufs⟩ : ∃ srcBuf dstBuf bufs, st.bufs = srcBuf :: dstBuf :: bufs := by
    have hlen := h.bufs
    match hbufs : st.bufs with
    | [] => simp [hbufs] at hlen
    | [_] => simp [hbufs] at hlen
    | srcBuf :: dstBuf :: bufs => exact ⟨srcBuf, dstBuf, bufs, rfl⟩
  obtain ⟨srcBuf', dstBuf', hfill⟩ : ∃ srcBuf' dstBuf', fillCypherBuffers wideConfig.dev (hashArgs ctx) srcBuf
      dstBuf st.pool = .ok (true, srcBuf', dstBuf', st.pool) := ⟨_, _, rfl⟩
  have hfull : isChannelFull wideConfig st = false := by
    rw [isChannelFull, hnum]
    rfl
  have hroom : st.reqRingQueue.isFull = false := by
    simp [InflightReqRingQueue.isFull, h.headId, h.tailId, h.size]
  have hsession : sessionOf (hashArgs ctx) st = some ⟨.kSHA256, true⟩ := by
    simp [sessionOf, hashArgs, h.sessions]
  unfold submitAsync
  simp only [hfull, hroom, hsession, hbufs, hfill, newCypherCallbackCtx, cpaStatusToVesalStatusCode]
  exact ⟨_, rfl⟩

variable {Result : Type} {maxNum : Nat} {results called : List CypherResult}

lemma popResults_noRoom (q : InflightReqRingQueue Result) {size : Int} (h : size ≤ 0) :
    q.popResults size = ([], q) := by
  unfold InflightReqRingQueue.popResults
  rw [Int.toNat_of_nonpos h]
  cases q.tailId - q.headId with
  | zero => rfl
  | succ n => rfl

variable {cfg : CypherConfig} {st₁ : ChannelState}

lemma afterTimeouts_idle (htimers : st.timers.timers = []) (hfree : st.freeTimers.timers = []) :
    afterTimeouts cfg env st = st := by
  have hkept : st.timers.handleTimeout env.now = st.timers := by
    rw [TimerManager.handleTimeout, htimers, dropWhile_nil, ← htimers]
  have hfreeKept : st.freeTimers.handleTimeout env.freeNow = st.freeTimers := by
    rw [TimerManager.handleTimeout, hfree, dropWhile_nil, ← hfree]
  have hdue : st.timers.due env.now = [] := by rw [TimerManager.due, htimers, takeWhile_nil]
  have hfreeDue : st.freeTimers.due env.freeNow = [] := by rw [TimerManager.due, hfree, takeWhile_nil]
  have htimeout : handleTimeout cfg env.now env.timeouts st = st := by
    rw [handleTimeout, hdue, foldl_nil, onInFlight, hkept]
  have hfreeTimeout : st.toInFlight.handleFreeTimeout env.freeNow = st.toInFlight := by
    rw [handleFreeTimeout, hfreeDue, foldl_nil, hfreeKept]
  rw [afterTimeouts, htimeout, onInFlight, hfreeTimeout]

lemma poll_of_success (maxNum : Nat) (hstatus : env.status = .success)
    (hpoll : cyPollInstance cfg env.completions st = .ok st₁)
    (hsize : (afterTimeouts cfg env st₁).reqRingQueue.size ≠ 0) :
    let popped := (afterTimeouts cfg env st₁).reqRingQueue.popResults (Int.bmod maxNum (2 ^ 32))
    ChannelState.poll cfg env maxNum st = .ok (popped.1.length, popped.1, if cfg.userCb then popped.1 else [],
      { afterTimeouts cfg env st₁ with reqRingQueue := popped.2 }) := by
  unfold ChannelState.poll
  rw [hpoll]
  dsimp only
  rw [if_neg (by simp [hstatus])]
  exact if_neg hsize

lemma cypherStep_of_poll {n : Int} (hopened : run.channel.closed = false)
    (h : ChannelState.poll cfg env maxNum run.channel = .ok (n, results, called, st)) :
    cypherStep cfg run (.poll env maxNum) =
      .ok ⟨st, run.accepted, run.returned ++ results, run.notified ++ called⟩ := by
  simp only [cypherStep, hopened, h]
  rfl

lemma cleanUpReqData_bufs {s : InFlight CypherMeta CypherCbContext} {srcBuf dstBuf : QatBuf}
    (hsrc : (s.cbs c).srcBuf = some srcBuf) (hdst : (s.cbs c).dstBuf = some dstBuf) (dev : DmaUnit) (slot : Nat) :
    (s.cleanUpReqData dev (some slot) (some c)).bufs.length = s.bufs.length + 2 := by
  obtain ⟨metas, timers, hdrop, -⟩ := dropMeta_frame slot s
  have hsrc' : CallbackContext.srcBuf (s.cbs c) = some srcBuf := hsrc
  have hdst' : CallbackContext.dstBuf (s.cbs c) = some dstBuf := hdst
  simp only [cleanUpReqData, hdrop, InFlight.resetCb, InFlight.setCb, hsrc', hdst', returnBuf,
    length_cons]

lemma Backlog.callback {ctx : Nat} {sub : CypherSubmission} {st₂ : ChannelState} (h : Backlog n st)
    (hsub : sub.Accepted wideConfig ⟨.success, 0⟩ (hashArgs ctx) st st₁)
    (hring : Ring wideConfig.size st.toInFlight st.timers.timers)
    (hc : c = st.cbPool (wideConfig.size.slotOf st.nextReqId))
    (hcallback : cyCallback wideConfig hashCompletion c (st₁.onInFlight fun s => { s with hw := [] }) = .ok st₂) :
    Backlog (n + 1) st₂ ∧ st₂.reqRingQueue.reqs ((n : Int).tmod (-2 ^ 31)) = ⟨⟨.kOk, ctx⟩, n⟩ := by
  have hadds := hsub.contexts hring
  have hnoted := hsub.noted
  have hctx := newCypherCallbackCtx_cb hsub.context
  obtain ⟨srcBuf, dstBuf, hbufs, -⟩ := hsub.filled
  have hkept : st₁.sessions = st.sessions ∧ st₁.freeTimers = st.freeTimers ∧ st₁.bufs = sub.bufs := by
    obtain ⟨len, rfl⟩ := hsub.state
    exact ⟨rfl, rfl, rfl⟩
  have hcb : st₁.cbs c = sub.cb := by
    rw [hadds.cbs, ← hc]
    exact update_self _ _ _
  have hslot : wideConfig.size.slotOf (st₁.cbs c).reqId = wideConfig.size.slotOf st.nextReqId := by
    rw [hcb, hctx.reqId]
  rcases cyCallback_cases hcallback with ⟨hinvalid, -⟩ | ⟨-, pool, hst₂⟩
  · have hvalid := hnoted.valid
    rw [← hslot] at hvalid
    exact absurd (hvalid.symm.trans hinvalid) (by decide)
  let s := popped st₁.toInFlight [] (st₁.inQatNum - 1) pool
  let slot := wideConfig.size.slotOf (st₁.cbs c).reqId
  have hinFlight : st₂.toInFlight = s.cleanUpReqData wideConfig.dev (some slot) (some c) := by
    rw [hst₂]
    rfl
  have hlen : st₂.bufs.length = sub.bufs.length + 2 := by
    rw [hinFlight, cleanUpReqData_bufs (s := s) ((congrArg _ hcb).trans hctx.srcBuf)
      ((congrArg _ hcb).trans hctx.dstBuf), ← hkept.2.2]
    rfl
  have hqueue : st₁.reqRingQueue = { st.reqRingQueue with tailId := n + 1 } := by
    have hnew := hnoted.newReq
    rw [InflightReqRingQueue.newReq, hsub.room, if_neg Bool.false_ne_true, Prod.mk.injEq] at hnew
    rw [← hnew.2, h.tailId]
  have hresult : st₂.reqRingQueue = st₁.reqRingQueue.pushResult ⟨.kOk, (st₁.metas slot).info.userCtx⟩
      (st₁.metas slot).info.ringQueueId := by
    rw [hst₂]
    rfl
  rw [show slot = wideConfig.size.slotOf st.nextReqId from hslot, hnoted.userCtx, hnoted.ringQueueId, hnoted.newReq,
    h.tailId, hqueue] at hresult
  obtain ⟨metas, timers, bufs, pool', hclean, -⟩ := cleanUpReqData_frame wideConfig.dev (some slot) c s
  rw [hclean] at hinFlight
  refine ⟨⟨?_, ?_, ?_, ?_, ?_, ?_, ?_⟩, ?_⟩
  · rw [hst₂]
    exact hkept.1.trans h.sessions
  · rw [hinFlight]
    rfl
  · rw [hinFlight]
    exact (congrArg TimerManager.timers hkept.2.1).trans h.freeTimers
  · rw [hlen]
    omega
  · rw [hresult]
    exact h.headId
  · rw [hresult]
    rfl
  · rw [hresult]
    exact h.size
  · rw [hresult, InflightReqRingQueue.pushResult]
    dsimp only
    rw [h.size, update_self]
    rfl

lemma Backlog.timers (h : Backlog n st) (hring : Ring wideConfig.size st.toInFlight st.timers.timers) :
    st.timers.timers = [] := by
  have hle := hring.ts_le
  rw [h.hw] at hle
  exact eq_nil_of_length_eq_zero (Nat.le_zero.mp hle)

lemma Backlog.poll (h : Backlog n st₁) (hring : Ring wideConfig.size st₁.toInFlight st₁.timers.timers)
    (hstatus : env.status = .success) (hpoll : cyPollInstance wideConfig env.completions st = .ok st₁) :
    ChannelState.poll wideConfig env (2 ^ 31) st = .ok (0, [], [], st₁) := by
  have hidle : afterTimeouts wideConfig env st₁ = st₁ := afterTimeouts_idle (h.timers hring) h.freeTimers
  have hroom : Int.bmod ((2 ^ 31 : Nat) : Int) (2 ^ 32) ≤ 0 := by decide
  have hreturns := poll_of_success (2 ^ 31) hstatus hpoll (by rw [hidle, h.size]; decide)
  rw [hidle, popResults_noRoom _ hroom] at hreturns
  exact hreturns

lemma Backlog.round (hkept : ContextsKept wideConfig run) (h : Backlog n run.channel) (ctx : Nat) :
    ∃ run₁ run₂, cypherStep wideConfig run (hashAt 0 ctx) = .ok run₁ ∧
      cypherStep wideConfig run₁ pollNone = .ok run₂ ∧ Backlog (n + 1) run₂.channel ∧
      run₂.accepted = run.accepted ++ [hashArgs ctx] ∧ run₂.returned = run.returned ∧
      run₂.channel.reqRingQueue.reqs ((n : Int).tmod (-2 ^ 31)) = ⟨⟨.kOk, ctx⟩, n⟩ := by
  have hnum : run.channel.inQatNum = 0 := by
    rw [hkept.count, h.hw]
    rfl
  obtain ⟨st₁, hsubmit⟩ := h.submit hnum ctx
  obtain ⟨sub, hsub⟩ := exists_cypherSubmission hsubmit
  let c := run.channel.cbPool (wideConfig.size.slotOf run.channel.nextReqId)
  have hhw : st₁.hw = [c] := by
    rw [(hsub.contexts hkept.ring).hw, h.hw]
    rfl
  let run₁ : CypherRun := { run with channel := st₁, accepted := run.accepted ++ [hashArgs ctx] }
  have hopen : CypherKeepsOpen (hashAt 0 ctx) := trivial
  have hstep₁ : cypherStep wideConfig run (hashAt 0 ctx) = .ok run₁ := by
    simp [cypherStep, hashAt, hkept.opened, hsubmit, run₁]
  have hkept₁ : ContextsKept wideConfig run₁ := hkept.step hopen hstep₁
  obtain ⟨st₂, hpoll⟩ := hkept₁.cyPollInstance_returns [hashCompletion]
  have hcallback : cyCallback wideConfig hashCompletion c (st₁.onInFlight fun s => { s with hw := [] }) = .ok st₂ := by
    change cyPollInstance wideConfig [hashCompletion] st₁ = .ok st₂ at hpoll
    rw [cyPollInstance, hhw] at hpoll
    dsimp only at hpoll
    split at hpoll
    · cases hpoll
    · rename_i hcallback
      cases hpoll
      exact hcallback
  obtain ⟨hbacklog, hentry⟩ := h.callback hsub hkept.ring rfl hcallback
  refine ⟨run₁, { run₁ with channel := st₂ }, hstep₁, ?_, hbacklog, rfl, rfl, hentry⟩
  have hring := (cyPollInstance_contexts hkept₁.ring hpoll).ring
  have hreturns : ChannelState.poll wideConfig (pollEnvOf [hashCompletion]) (2 ^ 31) run₁.channel =
      .ok (0, [], [], st₂) := hbacklog.poll hring rfl hpoll
  have hstep₂ := cypherStep_of_poll hkept₁.opened hreturns
  rw [append_nil, append_nil] at hstep₂
  exact hstep₂

lemma wide_rounds (n : Nat) : ∃ run,
    CypherRuns wideConfig (fun _ ev => SubmitsAndPolls ev) (initCypherRun wideConfig 16384 samplePool) run ∧
      Backlog n run.channel ∧ run.accepted = (range n).map hashArgs ∧ run.returned = [] ∧
      (0 < n → run.channel.reqRingQueue.reqs (((n - 1 : Nat) : Int).tmod (-2 ^ 31)) = ⟨⟨.kOk, n - 1⟩, (n - 1 : Nat)⟩) := by
  induction n with
  | zero =>
    refine ⟨_, Relation.ReflTransGen.refl, ⟨rfl, rfl, rfl, by decide, rfl, rfl, by decide +kernel⟩, rfl, rfl, ?_⟩
    exact fun h => absurd h (lt_irrefl 0)
  | succ n ih =>
    obtain ⟨run, hruns, hbacklog, haccepted, hreturned, -⟩ := ih
    have hkept := contextsKept_of_runs (fun _ _ => SubmitsAndPolls.keepsOpen) hruns
    obtain ⟨run₁, run₂, hstep₁, hstep₂, hbacklog', haccepted', hreturned', hentry⟩ := hbacklog.round hkept n
    refine ⟨run₂, (hruns.tail ⟨_, ?_, hstep₁⟩).tail ⟨_, ?_, hstep₂⟩, hbacklog', ?_, hreturned'.trans hreturned, ?_⟩
    · exact (by decide : 1 ≤ vesalMaxSglNum)
    · exact (by decide : 1 ≤ 2 ^ 31 ∧ 2 ^ 31 < 2 ^ 32)
    · rw [haccepted', haccepted, range_succ, map_append]
      rfl
    · exact fun _ => hentry

lemma popResults_one {q : InflightReqRingQueue Result} (hlt : q.headId < q.tailId)
    (hdone : ¬ (q.reqs ((q.headId : Int).tmod q.size)).id < q.headId) :
    (q.popResults 1).1 = [(q.reqs ((q.headId : Int).tmod q.size)).result] := by
  obtain ⟨k, hk⟩ : ∃ k, q.tailId - q.headId = k + 1 := ⟨q.tailId - q.headId - 1, by omega⟩
  have hnone : ∀ i q', InflightReqRingQueue.popLoop k i 0 q' = (([] : List Result), q') := by
    intro i q'
    cases k <;> rfl
  unfold InflightReqRingQueue.popResults
  rw [hk, Int.toNat_one, InflightReqRingQueue.popLoop, if_neg hdone, hnone]

lemma not_returnedInOrder {k : Nat} (haccepted : run.accepted = (range (n + 1)).map hashArgs)
    (hreturned : run.returned = [⟨.kOk, k⟩]) (hk : k ≠ 0) : ¬ ReturnedInOrder run := by
  unfold ReturnedInOrder
  rw [haccepted, hreturned, range_succ_eq_map, map_cons, map_cons, map_cons, cons_prefix_cons]
  exact fun h => hk h.1

lemma wide_takes_last (n : Nat) (hn : (n : Int).tmod (-2 ^ 31) = 0) : ∃ run,
    CypherRuns wideConfig (fun _ ev => SubmitsAndPolls ev) (initCypherRun wideConfig 16384 samplePool) run ∧
      run.accepted = (range (n + 1)).map hashArgs ∧ run.returned = [⟨.kOk, n⟩] := by
  obtain ⟨run, hruns, hbacklog, haccepted, hreturned, hentry⟩ := wide_rounds (n + 1)
  have hkept := contextsKept_of_runs (fun _ _ => SubmitsAndPolls.keepsOpen) hruns
  have hfirst : run.channel.reqRingQueue.reqs ((run.channel.reqRingQueue.headId : Int).tmod
      run.channel.reqRingQueue.size) = ⟨⟨.kOk, n⟩, n⟩ := by
    have hlast := hentry (Nat.succ_pos n)
    rw [Nat.add_sub_cancel, hn] at hlast
    rw [hbacklog.headId, hbacklog.size, Nat.cast_zero, Int.zero_tmod]
    exact hlast
  have htaken : (run.channel.reqRingQueue.popResults 1).1 = [⟨.kOk, n⟩] := by
    rw [popResults_one, hfirst]
    · rw [hbacklog.headId, hbacklog.tailId]
      exact Nat.succ_pos n
    · rw [hfirst, hbacklog.headId]
      exact not_lt.mpr (Int.natCast_nonneg n)
  have hidle : afterTimeouts wideConfig (pollEnvOf []) run.channel = run.channel :=
    afterTimeouts_idle (hbacklog.timers hkept.ring) hbacklog.freeTimers
  have hone : Int.bmod ((1 : Nat) : Int) (2 ^ 32) = 1 := by decide
  have hcallbacks : cyPollInstance wideConfig (pollEnvOf []).completions run.channel = .ok run.channel := rfl
  have hreturns := poll_of_success 1 rfl hcallbacks (by rw [hidle, hbacklog.size]; decide)
  dsimp only at hreturns
  rw [hidle, hone, htaken] at hreturns
  have hstep := cypherStep_of_poll hkept.opened hreturns
  have hevent : SubmitsAndPolls (.poll (pollEnvOf []) 1) := (by decide : 1 ≤ 1 ∧ 1 < 2 ^ 32)
  refine ⟨_, hruns.tail ⟨_, hevent, hstep⟩, haccepted, ?_⟩
  dsimp only
  rw [hreturned, nil_append]

/-- After `2 ^ 31 + 1` requests the first result that is taken out is the last one: the queue
took no notice of being full, and the last result stands where the first one was. -/
theorem wide_queue_breaks_order :
    ¬ wideConfig.QueueFits ∧ ∃ run,
      CypherRuns wideConfig (fun _ ev => SubmitsAndPolls ev) (initCypherRun wideConfig 16384 samplePool) run ∧
      run.accepted = (List.range (2 ^ 31 + 1)).map hashArgs ∧ run.returned = [⟨.kOk, 2 ^ 31⟩] ∧
      ¬ ReturnedInOrder run := by
  refine ⟨by decide +kernel, ?_⟩
  obtain ⟨run, hruns, haccepted, hreturned⟩ := wide_takes_last (2 ^ 31) (by decide +kernel)
  exact ⟨run, hruns, haccepted, hreturned, not_returnedInOrder haccepted hreturned (by decide)⟩

def DriverPolls : CypherEvent → Prop
  | .poll env maxNum => maxNum = 0 ∨ env.status = .success ∨ env.status = .retry
  | _ => True

instance : DecidablePred DriverPolls
  | .poll env maxNum => inferInstanceAs (Decidable (maxNum = 0 ∨ env.status = .success ∨ env.status = .retry))
  | .submit _ _ | .addSession _ | .removeSession _ _ | .close _ _ | .memory _ => isTrue trivial

lemma poll_called (huserCb : cfg.userCb = true) {n : Int} (hdriver : DriverPolls (.poll env maxNum))
    (h : ChannelState.poll cfg env maxNum st = .ok (n, results, called, st')) : called = results := by
  obtain ⟨st₁, -, ⟨hfail, rfl, rfl, -⟩ | ⟨-, -, rfl, -⟩⟩ := poll_cases h
  · rcases hdriver with rfl | hsuccess | hretry
    · rw [if_pos huserCb]
      rfl
    · exact absurd hsuccess hfail.1
    · exact absurd hretry hfail.2
  · exact if_pos huserCb

/-- In every run with `user_cb` set in which the driver polls. -/
theorem user_cb_follows_results (cfg : CypherConfig) (huserCb : cfg.userCb = true) (ivBuf : Nat) (pool : PoolState)
    (run : CypherRun) (h : CypherRuns cfg (fun _ ev => DriverPolls ev) (initCypherRun cfg ivBuf pool) run) :
    run.notified = run.returned ∧
      (cfg.QueueFits → run.notified.map CypherResult.ctx <+: run.accepted.map CypherReqArgs.ctx) := by
  have hsame : run.notified = run.returned := by
    refine h.invariant (P := fun run => run.notified = run.returned) rfl ?_
    intro run ev run' hrun hdriver hstep
    rcases cypherStep_cases hstep with ⟨_, _, _, _, -, -, -, rfl⟩ |
      ⟨env, maxNum, n, results, called, st, rfl, -, hpoll, rfl⟩ | ⟨_, -, -, rfl⟩ | ⟨_, _, _, -, -, -, rfl⟩ |
      ⟨_, _, _, _, -, -, rfl⟩ | ⟨_, -, rfl⟩
    · exact hrun
    · dsimp only
      rw [hrun, poll_called huserCb hdriver hpoll]
    · exact hrun
    · exact hrun
    · exact hrun
    · exact hrun
  refine ⟨hsame, fun hfits => ?_⟩
  rw [hsame]
  exact returnedInOrder_of_runs hfits h

def userCbConfig : CypherConfig := { cypherSampleConfig with userCb := true }

/-- A request that completes, and one that times out. -/
theorem user_cb_follows_two_results :
    ∃ run, CypherRuns userCbConfig (fun _ ev => DriverPolls ev) (initCypherRun userCbConfig 16384 samplePool) run ∧
      run.notified = [⟨.kOk, 7⟩, ⟨.kTimeout, 9⟩] ∧ run.notified = run.returned ∧
      run.notified.map CypherResult.ctx <+: run.accepted.map CypherReqArgs.ctx := by
  obtain ⟨run, hruns, -, hgoal⟩ := exists_runs_of_reaches (cypherStep userCbConfig)
    (initCypherRun userCbConfig 16384 samplePool)
    [hashAt 0 7, cypherPollAt 1 [hashCompletion], hashAt 2 9, cypherPollAt 200 []]
    (fun _ ev => decide (DriverPolls ev)) (fun run => run.notified == [⟨.kOk, 7⟩, ⟨.kTimeout, 9⟩])
    (fun _ _ h => of_decide_eq_true h) (by decide +kernel)
  have hrule := user_cb_follows_results userCbConfig rfl 16384 samplePool run hruns
  exact ⟨run, hruns, by simpa using hgoal, hrule.1, hrule.2 (by decide +kernel)⟩

/-- The driver fails, `Poll` returns `-1`, and `user_cb` is called with both entries of the
array of the caller, which `Poll` did not fill. -/
theorem failed_poll_calls_user_cb :
    ∃ run, runCypher userCbConfig (initCypherRun userCbConfig 16384 samplePool)
        [.poll ⟨[], .fail, 0, fun _ => ⟨0, 0⟩, 0, fun i => ⟨.kUnknown, i⟩⟩ 2] = .ok run ∧
      run.returned = [] ∧ run.notified = [⟨.kUnknown, 0⟩, ⟨.kUnknown, 1⟩] := by
  obtain ⟨run, -, hrun, hgoal⟩ := exists_runs_of_reaches (cypherStep userCbConfig)
    (initCypherRun userCbConfig 16384 samplePool)
    [.poll ⟨[], .fail, 0, fun _ => ⟨0, 0⟩, 0, fun i => ⟨.kUnknown, i⟩⟩ 2] (fun _ _ => true)
    (fun run => run.returned == [] && run.notified == [⟨.kUnknown, 0⟩, ⟨.kUnknown, 1⟩])
    (fun _ _ h => h) (by decide +kernel)
  simp only [Bool.and_eq_true, beq_iff_eq] at hgoal
  exact ⟨run, hrun, hgoal.1, hgoal.2⟩

end Vesal.Proofs
