import Vesal.Proofs.CypherLengths

/-! # Contexts that the hardware has -/

namespace Vesal.Proofs

open ChannelState List Function

variable {cfg : CypherConfig} {st st' st'' : ChannelState}

structure KeepsContexts (cfg : CypherConfig) (st st' : ChannelState) : Prop where
  ring : Standing cfg.size st'.toInFlight
  hw : st'.hw <:+ st.hw
  cbs : ∀ c ∈ st'.hw, st'.cbs c = st.cbs c
  count : st.inQatNum = st.hw.length → st'.inQatNum = st'.hw.length
  nextReqId : st'.nextReqId = st.nextReqId
  closed : st'.closed = st.closed

lemma KeepsContexts.refl (hring : Standing cfg.size st.toInFlight) : KeepsContexts cfg st st where
  ring := hring
  hw := suffix_refl _
  cbs := fun _ _ => rfl
  count := id
  nextReqId := rfl
  closed := rfl

lemma KeepsContexts.trans (h : KeepsContexts cfg st st') (h' : KeepsContexts cfg st' st'') :
    KeepsContexts cfg st st'' where
  ring := h'.ring
  hw := h'.hw.trans h.hw
  cbs c hc := (h'.cbs c hc).trans (h.cbs c (h'.hw.subset hc))
  count hcount := h'.count (h.count hcount)
  nextReqId := h'.nextReqId.trans h.nextReqId
  closed := h'.closed.trans h.closed

lemma KeepsContexts.congr (hring : Standing cfg.size st.toInFlight)
    (hinFlight : ∃ bufs pool freeTimers deleted, st'.toInFlight =
      { st.toInFlight with bufs := bufs, pool := pool, freeTimers := freeTimers, deleted := deleted })
    (hclosed : st'.closed = st.closed) : KeepsContexts cfg st st' := by
  obtain ⟨bufs, pool, freeTimers, deleted, heq⟩ := hinFlight
  refine ⟨?_, ?_, fun c _ => ?_, ?_, ?_, hclosed⟩
  · rw [heq]
    exact hring.congr rfl rfl rfl rfl rfl rfl rfl
  · rw [heq]
  · rw [heq]
  · rw [heq]
    exact id
  · rw [heq]

variable {c : Nat} {hw : List Nat} {run : CypherRun}

lemma KeepsContexts.setCb (hring : Standing cfg.size st.toInFlight) (hc : c ∉ st.hw)
    (cb : CypherCbContext) : KeepsContexts cfg st (st.onInFlight (·.setCb c cb)) where
  ring := hring.setCb hc cb
  hw := suffix_refl _
  cbs _ ha := update_of_ne (ne_of_mem_of_not_mem ha hc) _ _
  count := id
  nextReqId := rfl
  closed := rfl

lemma KeepsContexts.resetCb (hring : Standing cfg.size st.toInFlight) (hc : c ∉ st.hw) :
    KeepsContexts cfg st (st.onInFlight (·.resetCb cfg.dev c)) := by
  obtain ⟨bufs, pool, heq⟩ := resetCb_eq cfg.dev c st.toInFlight
  have hset := KeepsContexts.setCb hring hc (CallbackContext.cleared (st.cbs c))
  refine hset.trans (KeepsContexts.congr hset.ring ⟨bufs, pool, st.freeTimers, st.deleted, ?_⟩ rfl)
  rw [onInFlight, heq]
  rfl

lemma onTimeout_ring {t : TimeoutContext Nat} {ts : List (TimeoutContext Nat)}
    (hring : Ring cfg.size st.toInFlight (t :: ts)) (env : TimeoutEnv) :
    Ring cfg.size (onTimeout cfg env t.timerArg st).toInFlight ts :=
  (hring.intercept (replacementCb env.pIv)).congr rfl rfl rfl rfl rfl rfl rfl

lemma foldl_onTimeout_contexts (env : Nat → TimeoutEnv) (fired ts : List (TimeoutContext Nat))
    (hring : Ring cfg.size st.toInFlight (fired ++ ts)) :
    let st' := fired.foldl (fun st t => onTimeout cfg (env t.timerArg) t.timerArg st) st
    Ring cfg.size st'.toInFlight ts ∧ ∀ c ∈ st.hw, st'.cbs c = st.cbs c := by
  induction fired generalizing st with
  | nil => exact ⟨hring, fun _ _ => rfl⟩
  | cons t fired ih =>
    obtain ⟨hrest, hcbs⟩ := ih (onTimeout_ring hring (env t.timerArg))
    refine ⟨hrest, fun c hc => (hcbs c hc).trans ?_⟩
    -- the new context is none that the hardware has
    exact update_of_ne (Nat.ne_of_lt (hring.cb_lt c hc)) _ _

lemma handleTimeout_contexts (hring : Standing cfg.size st.toInFlight) (now : Nat)
    (env : Nat → TimeoutEnv) : KeepsContexts cfg st (handleTimeout cfg now env st) := by
  let st₀ := st.onInFlight fun s => { s with timers := s.timers.handleTimeout now }
  have hring₀ : Ring cfg.size st₀.toInFlight _ := hring.takeDue now
  obtain ⟨hrest, hcbs⟩ := foldl_onTimeout_contexts env _ _ hring₀
  have hproj := fun {β : Type} (p : ChannelState → β) (hp : ∀ env slot st, p (onTimeout cfg env slot st) = p st) =>
    cypherHandleTimeout_proj p now env hp st
  have hhw : (handleTimeout cfg now env st).hw = st.hw := hproj (·.hw) fun _ _ _ => rfl
  refine ⟨?_, ?_, fun c hc => ?_, fun hcount => ?_, hproj (·.nextReqId) fun _ _ _ => rfl,
    hproj (·.closed) fun _ _ _ => rfl⟩
  · rw [Standing, hproj (·.timers) fun _ _ _ => rfl]
    exact hrest
  · rw [hhw]
  · rw [hhw] at hc
    exact hcbs c hc
  · rw [hhw, hproj (·.inQatNum) fun _ _ _ => rfl]
    exact hcount

lemma handleFreeTimeout_contexts (hring : Standing cfg.size st.toInFlight) (now : Nat) :
    KeepsContexts cfg st (st.onInFlight (·.handleFreeTimeout now)) := by
  obtain ⟨freeTimers, deleted, heq⟩ := handleFreeTimeout_eq now st.toInFlight
  exact KeepsContexts.congr hring ⟨st.bufs, st.pool, freeTimers, deleted, heq⟩ rfl

def ringBooks (st : ChannelState) : Books CypherMeta CypherCbContext CypherReqArgs :=
  ⟨st.toInFlight, st.timers.timers, [], []⟩

variable {ev : Completion} {args : CypherReqArgs}

section

variable (hring : Standing cfg.size st.toInFlight)
include hring

lemma cyCallback_inFlight (hhw : st.hw = c :: hw)
    (h : cyCallback cfg ev c (st.onInFlight fun s => { s with hw := hw }) = .ok st') :
    (∃ slot pool, st'.toInFlight =
      (popped st.toInFlight hw (st.inQatNum - 1) pool).cleanUpReqData cfg.dev slot (some c)) ∧
    Standing cfg.size st'.toInFlight ∧
    st'.timers.timers = st.timers.timers.drop (1 - (st.hw.length - st.timers.timers.length)) ∧
    st'.closed = st.closed ∧ st'.ivBuf = st.ivBuf := by
  have hle := hring.hw_le_inQatNum
  rw [hhw, length_cons] at hle
  rcases cyCallback_cases h with ⟨hinvalid, pool, hst'⟩ | ⟨hvalid, pool, hst'⟩
  · have hlate := late_advances CypherMeta.userCtx False pool (b := ringBooks st) hring hhw
      (n := st.inQatNum - 1) (by omega) (Nat.sub_le _ _) cfg.dev hinvalid
    have htimers : st'.timers.timers = st.timers.timers := by
      rw [hst']
      exact resetCb_proj (·.timers.timers) (fun _ _ _ _ => rfl) cfg.dev c _
    have hts : st.timers.timers.length ≤ hw.length := hring.head_invalid hhw hinvalid
    have hdrop : 1 - (st.hw.length - st.timers.timers.length) = 0 := by
      rw [hhw, length_cons]
      omega
    refine ⟨⟨none, pool, by rw [hst']; rfl⟩, ?_, by rw [htimers, hdrop]; rfl, by rw [hst']; rfl, by rw [hst']; rfl⟩
    rw [Standing, htimers, hst']
    exact hlate.ring
  · obtain ⟨t, ts, hts, hlen, hslot⟩ := hring.head_valid hhw hvalid
    obtain ⟨hcomplete, htimers⟩ := complete_advances CypherMeta.userCtx False pool (b := ringBooks st) hring hts hts
      hhw hlen (n := st.inQatNum - 1) (by omega) (Nat.sub_le _ _) cfg.dev .kOk False.elim
    have hinFlight : st'.toInFlight =
        (popped st.toInFlight hw (st.inQatNum - 1) pool).cleanUpReqData cfg.dev (some t.timerArg) (some c) := by
      rw [hst', hslot]
      rfl
    have hrest : st'.timers.timers = ts := by
      rw [hinFlight]
      exact htimers
    have hdrop : 1 - (st.hw.length - st.timers.timers.length) = 1 := by
      rw [hhw, hts, length_cons, length_cons, hlen]
      omega
    refine ⟨⟨_, _, hinFlight⟩, ?_, by rw [hrest, hdrop, hts]; rfl, by rw [hst']; rfl, by rw [hst']; rfl⟩
    rw [Standing, hrest, hinFlight]
    exact hcomplete.ring

lemma cyCallback_contexts (hhw : st.hw = c :: hw)
    (h : cyCallback cfg ev c (st.onInFlight fun s => { s with hw := hw }) = .ok st') :
    KeepsContexts cfg st st' := by
  obtain ⟨⟨slot, pool, hinFlight⟩, hring', -, hclosed, -⟩ := cyCallback_inFlight hring hhw h
  obtain ⟨metas, timers, bufs, pool', heq, -⟩ := cleanUpReqData_frame cfg.dev slot c
    (popped st.toInFlight hw (st.inQatNum - 1) pool)
  rw [heq] at hinFlight
  refine ⟨hring', ?_, fun a ha => ?_, fun hcount => ?_, ?_, hclosed⟩
  · rw [hinFlight, hhw]
    exact suffix_cons c hw
  · rw [hinFlight] at ha ⊢
    exact update_of_ne (ne_of_mem_of_not_mem ha (hring.head_not_mem hhw)) _ _
  · rw [hinFlight]
    rw [hhw, length_cons] at hcount
    exact Nat.sub_eq_of_eq_add hcount
  · rw [hinFlight]
    rfl

lemma cyCallback_returns (hhw : st.hw = c :: hw) {buf : QatBuf} (hbuf : (st.cbs c).dstBuf = some buf)
    (ev : Completion) :
    ∃ st', cyCallback cfg ev c (st.onInFlight fun s => { s with hw := hw }) = .ok st' := by
  have hchannel : (st.cbs c).channel = true := (hring.head_reqId hhw).1
  unfold cyCallback
  dsimp only [onInFlight]
  rw [hchannel, hbuf]
  split
  · contradiction
  · split
    · exact ⟨_, rfl⟩
    · exact ⟨_, rfl⟩

end

variable {P : ChannelState → Prop} {evs : List Completion} {polls : List (List Completion)} {env : SubmitEnv}
  {run' : CypherRun}

section

variable (hP : ∀ ev c hw st st', P st → st.hw = c :: hw →
  cyCallback cfg ev c (st.onInFlight fun s => { s with hw := hw }) = .ok st' → P st')
include hP

lemma cyPollInstance_keeps (hst : P st) (h : cyPollInstance cfg evs st = .ok st') : P st' := by
  induction evs generalizing st with
  | nil =>
    cases h
    exact hst
  | cons ev evs ih =>
    unfold cyPollInstance at h
    split at h
    · cases h
      exact hst
    · rename_i c hw hhw
      split at h
      · cases h
      · rename_i st₁ hcallback
        exact ih (hP ev c hw st st₁ hst hhw hcallback) h

lemma uninitPolls_keeps (hst : P st) (h : polls.foldlM (fun st evs => cyPollInstance cfg evs st) st = .ok st') :
    P st' := by
  induction polls generalizing st with
  | nil =>
    cases h
    exact hst
  | cons evs polls ih =>
    rw [foldlM_cons] at h
    obtain ⟨st₁, hpoll, h⟩ := Library.exists_of_bind_eq_ok h
    exact ih (cyPollInstance_keeps hP hst hpoll) h

end

lemma KeepsContexts.cyCallback (h : KeepsContexts cfg st st') (hhw : st'.hw = c :: hw)
    (hcallback : cyCallback cfg ev c (st'.onInFlight fun s => { s with hw := hw }) = .ok st'') :
    KeepsContexts cfg st st'' := h.trans (cyCallback_contexts h.ring hhw hcallback)

section

variable (hring : Standing cfg.size st.toInFlight)
include hring

lemma cyPollInstance_contexts (h : cyPollInstance cfg evs st = .ok st') : KeepsContexts cfg st st' :=
  cyPollInstance_keeps (fun _ _ _ _ _ hkeeps hhw hcallback => hkeeps.cyCallback hhw hcallback)
    (KeepsContexts.refl hring) h

lemma uninitPolls_contexts (h : polls.foldlM (fun st evs => cyPollInstance cfg evs st) st = .ok st') :
    KeepsContexts cfg st st' :=
  uninitPolls_keeps (fun _ _ _ _ _ hkeeps hhw hcallback => hkeeps.cyCallback hhw hcallback)
    (KeepsContexts.refl hring) h

lemma poll_contexts {env : PollEnv} {maxNum : Nat} {n : Int} {results called : List CypherResult}
    (h : ChannelState.poll cfg env maxNum st = .ok (n, results, called, st')) : KeepsContexts cfg st st' := by
  obtain ⟨st₁, hpoll, ⟨-, -, -, rfl⟩ | ⟨-, -, -, rfl⟩⟩ := poll_cases h
  · exact cyPollInstance_contexts hring hpoll
  · have hpolled := cyPollInstance_contexts hring hpoll
    have htimeout := handleTimeout_contexts hpolled.ring env.now env.timeouts
    have hfree := handleFreeTimeout_contexts htimeout.ring env.freeNow
    refine (hpolled.trans htimeout).trans (hfree.trans ?_)
    exact KeepsContexts.congr hfree.ring ⟨_, _, _, _, rfl⟩ rfl

lemma submitAsync_contexts {status : StatusCode} (h : submitAsync cfg env args st = .ok (status, st'))
    (hstatus : status ≠ .kOk) : KeepsContexts cfg st st' := by
  rcases submitAsync_cases h with ⟨-, bufs, pool, rfl⟩ | ⟨-, hfull, cb, bufs, pool, -, rfl⟩ | ⟨hok, -⟩
  · exact KeepsContexts.congr hring ⟨bufs, pool, st.freeTimers, st.deleted, rfl⟩ rfl
  · have hfree := hring.next_cb_free (ring_room hring hfull)
    have hset := KeepsContexts.setCb hring hfree cb
    have hpool : KeepsContexts cfg _ (st.onInFlight fun s =>
        { s.setCb (st.cbPool (cfg.size.slotOf st.nextReqId)) cb with bufs := bufs, pool := pool }) :=
      KeepsContexts.congr hset.ring ⟨bufs, pool, st.freeTimers, st.deleted, rfl⟩ rfl
    have hprepared := hset.trans hpool
    exact hprepared.trans (KeepsContexts.resetCb hprepared.ring hfree)
  · exact absurd hok hstatus

end

structure AddsContext (cfg : CypherConfig) (c : Nat) (cb : CypherCbContext) (st st' : ChannelState) : Prop where
  ring : Standing cfg.size st'.toInFlight
  free : c ∉ st.hw
  hw : st'.hw = st.hw ++ [c]
  cbs : st'.cbs = Function.update st.cbs c cb
  inQatNum : st'.inQatNum = st.inQatNum + 1
  nextReqId : st'.nextReqId = st.nextReqId + 1
  reqId : cb.reqId = st.nextReqId
  closed : st'.closed = st.closed

lemma CypherSubmission.Accepted.contexts {sub : CypherSubmission} (h : sub.Accepted cfg env args st st')
    (hring : Standing cfg.size st.toInFlight) :
    AddsContext cfg (st.cbPool (cfg.size.slotOf st.nextReqId)) sub.cb st st' := by
  have hroom := ring_room hring h.notFull
  have hfree := hring.next_cb_free hroom
  have hctx := newCypherCallbackCtx_cb h.context
  obtain ⟨len, hst'⟩ := h.state
  let slot := cfg.size.slotOf st.nextReqId
  let s₁ : InFlight CypherMeta CypherCbContext :=
    { st.toInFlight.setCb (st.cbPool slot) sub.cb with bufs := sub.bufs, pool := { sub.pool with mem := sub.mem } }
  let m := storeRequest st.nextReqId st.reqRingQueue.newReq.1 len args (st.metas slot)
  have hring₁ : Ring cfg.size s₁ st.timers.timers := (hring.setCb hfree sub.cb).congr rfl rfl rfl rfl rfl rfl rfl
  have hring₂ : Ring cfg.size (s₁.setMeta slot m) st.timers.timers :=
    hring₁.setMeta (hring.slot_free hroom) (hring.next_invalid hroom)
  have hcb : s₁.cbs (st.cbPool slot) = sub.cb := update_self _ _ _
  have hmeta : (s₁.setMeta slot m).metas slot = m := update_self _ _ _
  have hslot : slot = cfg.size.slotOf st.nextReqId := rfl
  have hring₃ := hring₂.accept hroom env.now hslot
    ((congrArg CypherCbContext.channel hcb).trans hctx.channel)
    ((congrArg CypherCbContext.reqId hcb).trans hctx.reqId)
    (congrArg RequestMeta.reqId hmeta)
  subst hst'
  exact ⟨hring₃, hfree, rfl, rfl, rfl, rfl, hctx.reqId, rfl⟩

def SubmittedAs (cfg : CypherConfig) (args : CypherReqArgs) (cb : CypherCbContext) : Prop :=
  ∃ (sub : CypherSubmission) (env : SubmitEnv) (st st' : ChannelState),
    sub.Accepted cfg env args st st' ∧ sub.cb = cb

structure ContextsKept (cfg : CypherConfig) (run : CypherRun) : Prop where
  ring : Standing cfg.size run.channel.toInFlight
  opened : run.channel.closed = false
  count : run.channel.inQatNum = run.channel.hw.length
  next : run.channel.nextReqId = run.accepted.length
  submitted : ∀ c ∈ run.channel.hw, ∃ args, run.accepted[(run.channel.cbs c).reqId]? = some args ∧
    SubmittedAs cfg args (run.channel.cbs c)

lemma contextsKept_init (cfg : CypherConfig) (ivBuf : Nat) (pool : PoolState) :
    ContextsKept cfg (initCypherRun cfg ivBuf pool) where
  ring := ring_init _ _ _ _ _ _
  opened := rfl
  count := rfl
  next := rfl
  submitted := fun _ hc => absurd hc (not_mem_nil)

lemma SubmittedAs.dstBuf {cb : CypherCbContext} (h : SubmittedAs cfg args cb) :
    ∃ buf, cb.dstBuf = some buf := by
  obtain ⟨sub, env, st, st', hsub, rfl⟩ := h
  exact ⟨sub.dstBuf, (newCypherCallbackCtx_cb hsub.context).dstBuf⟩

lemma cypherStep_contexts {ev : CypherEvent}
    (hring : Standing cfg.size run.channel.toInFlight) (hclosed : run.channel.closed = false)
    (hopen : CypherKeepsOpen ev) (hstep : cypherStep cfg run ev = .ok run') :
    (KeepsContexts cfg run.channel run'.channel ∧ run'.accepted = run.accepted) ∨
    ∃ (sub : CypherSubmission) (env : SubmitEnv) (args : CypherReqArgs),
      sub.Accepted cfg env args run.channel run'.channel ∧ run'.accepted = run.accepted ++ [args] := by
  rcases cypherStep_cases hstep with ⟨env, args, status, st, rfl, -, hsubmit, rfl⟩ |
    ⟨env, maxNum, n, results, called, st, rfl, -, hpoll, rfl⟩ | ⟨algorithm, rfl, -, rfl⟩ |
    ⟨env, i, st, rfl, -, hremove, rfl⟩ | ⟨env, closed, status, st, rfl, hclose, rfl⟩ | ⟨pool, rfl, rfl⟩
  · by_cases hstatus : status = .kOk
    · subst hstatus
      obtain ⟨sub, hsub⟩ := exists_cypherSubmission hsubmit
      exact Or.inr ⟨sub, env, args, hsub, rfl⟩
    · exact Or.inl ⟨submitAsync_contexts hring hsubmit hstatus, if_neg hstatus⟩
  · exact Or.inl ⟨poll_contexts hring hpoll, rfl⟩
  · exact Or.inl ⟨KeepsContexts.congr hring ⟨_, _, _, _, rfl⟩ rfl, rfl⟩
  · obtain ⟨st₁, sessions, hpolls, rfl⟩ := removeSession_cases hremove
    have hpolled := uninitPolls_contexts hring hpolls
    exact Or.inl ⟨hpolled.trans (KeepsContexts.congr hpolled.ring ⟨_, _, _, _, rfl⟩ rfl), rfl⟩
  · obtain ⟨st₁, hpolls, ⟨-, sessions, rfl⟩ | ⟨hresult, -⟩⟩ := cypherClose_cases hclosed hclose
    · have hpolled := uninitPolls_contexts hring hpolls
      exact Or.inl ⟨hpolled.trans (KeepsContexts.congr hpolled.ring ⟨_, _, _, _, rfl⟩ rfl), rfl⟩
    · exact absurd hresult hopen
  · exact Or.inl ⟨KeepsContexts.congr hring ⟨_, _, _, _, rfl⟩ rfl, rfl⟩

lemma ContextsKept.step {ev : CypherEvent} (h : ContextsKept cfg run) (hopen : CypherKeepsOpen ev)
    (hstep : cypherStep cfg run ev = .ok run') : ContextsKept cfg run' := by
  rcases cypherStep_contexts h.ring h.opened hopen hstep with ⟨hkeeps, haccepted⟩ |
    ⟨sub, env, args, hsub, haccepted⟩
  · refine ⟨hkeeps.ring, hkeeps.closed.trans h.opened, hkeeps.count h.count, ?_, fun c hc => ?_⟩
    · rw [hkeeps.nextReqId, haccepted]
      exact h.next
    · rw [hkeeps.cbs c hc, haccepted]
      exact h.submitted c (hkeeps.hw.subset hc)
  · have hadds := hsub.contexts h.ring
    refine ⟨hadds.ring, hadds.closed.trans h.opened, ?_, ?_, fun c hc => ?_⟩
    · rw [hadds.inQatNum, hadds.hw, length_append, h.count]
      rfl
    · rw [hadds.nextReqId, haccepted, length_append, h.next]
      rfl
    · rw [hadds.cbs, haccepted]
      rw [hadds.hw, mem_append, mem_singleton] at hc
      rcases hc with hold | rfl
      · obtain ⟨args', hargs', hsubmitted⟩ := h.submitted c hold
        rw [update_of_ne (ne_of_mem_of_not_mem hold hadds.free)]
        exact ⟨args', getElem?_append_left (List.getElem?_eq_some_iff.mp hargs').1 ▸ hargs', hsubmitted⟩
      · rw [update_self, hadds.reqId, h.next]
        exact ⟨args, getElem?_concat_length, sub, env, _, _, hsub, rfl⟩

lemma ContextsKept.cyPollInstance_returns (h : ContextsKept cfg run) (evs : List Completion) :
    ∃ st, cyPollInstance cfg evs run.channel = .ok st := by
  have hcallable : ∀ c ∈ run.channel.hw, ∃ buf, (run.channel.cbs c).dstBuf = some buf := by
    intro c hc
    obtain ⟨args, -, hsubmitted⟩ := h.submitted c hc
    exact hsubmitted.dstBuf
  have hring := h.ring
  generalize run.channel = st at hcallable hring
  induction evs generalizing st with
  | nil => exact ⟨st, rfl⟩
  | cons ev evs ih =>
    cases hhw : st.hw with
    | nil => exact ⟨st, by rw [cyPollInstance, hhw]⟩
    | cons c hw =>
      obtain ⟨buf, hbuf⟩ := hcallable c (by rw [hhw]; exact mem_cons_self)
      obtain ⟨st₁, hcallback⟩ := cyCallback_returns hring hhw hbuf ev
      have hkeeps := cyCallback_contexts hring hhw hcallback
      obtain ⟨st', hrest⟩ := ih st₁ (fun a ha => by
        rw [hkeeps.cbs a ha]
        exact hcallable a (hkeeps.hw.subset ha)) hkeeps.ring
      refine ⟨st', ?_⟩
      rw [cyPollInstance, hhw]
      dsimp only
      rw [hcallback]
      exact hrest

lemma contextsKept_of_runs {allowed : CypherRun → CypherEvent → Prop}
    (hallowed : ∀ run ev, allowed run ev → CypherKeepsOpen ev) {ivBuf : Nat} {pool : PoolState}
    (h : CypherRuns cfg allowed (initCypherRun cfg ivBuf pool) run) : ContextsKept cfg run :=
  h.invariant (contextsKept_init cfg ivBuf pool)
    fun _ ev _ hrun hev hstep => hrun.step (hallowed _ ev hev) hstep

end Vesal.Proofs
