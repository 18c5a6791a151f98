import Vesal.CodecChannel
import Vesal.Proofs.CodecAnswers

/-! # Synchronous calls -/

namespace Vesal.Proofs

open EngineState CodecChannel List Function TimerManager Option

def sglRequest (cfg : ChannelConfig) (dir : CodecDirection) (src : List Nat) (srcLen : List UInt32)
    (dst : Nat) (dstLen : UInt32) : Option CodecRequestArgs :=
  if validateSglArgs src srcLen ≠ .kOk then none
  else some (sglRequestArgs cfg dir src srcLen dst dstLen 0)

def requestOf (cfg : ChannelConfig) : SyncCall → Option CodecRequestArgs
  | .compress src srcLen dst dstLen => sglRequest cfg .kComp [src] [srcLen] dst dstLen
  | .compressSGL src srcLen dst dstLen => sglRequest cfg .kComp src srcLen dst dstLen
  | .decompress src srcLen dst dstLen => sglRequest cfg .kDecomp [src] [srcLen] dst dstLen
  | .decompressSGL src srcLen dst dstLen => sglRequest cfg .kDecomp src srcLen dst dstLen
  | .submit args => some args

def completionsIn (env : SyncEnv) (r : SyncReturn) : List Completion :=
  (env.polls.take r.pollNum).flatMap PollEnv.completions

/-- The call gives the outcome of its own request, the one with the number `run.accepted.length`.
The next result is that of the number `run.returned.length`. -/
structure OwnOutcome (cfg : ChannelConfig) (env : SyncEnv) (call : SyncCall) (run : CodecRun)
    (r : SyncReturn) : Prop where
  own : r.popped = [] ∨ r.popped.length = 1 ∧ run.returned.length = run.accepted.length
  ok : r.result.status = .kOk → ∃ args ev, requestOf cfg call = some args ∧
    (completionsIn env r)[run.engine.hw.length]? = some ev ∧ Succeeds (frameMetaOf args) ev r.result
  silent : r.callbacks = []

def SyncAccepted (cfg : ChannelConfig) (env : SyncEnv) (call : SyncCall) (st : EngineState) : Prop :=
  ∃ args, requestOf cfg call = some args ∧ Admitted cfg.toEngineConfig args st ∧ env.submit.driver = .kOk

def NothingPending (st : EngineState) : Prop := st.timers.timers = [] ∧ st.codecResults = []

instance (st : EngineState) : Decidable (NothingPending st) := inferInstanceAs (Decidable (_ ∧ _))

/-- The hardware polls badly before it has completed one more than `late` requests, and before
`deadline`. -/
def badPollFirst (late deadline : Nat) : List PollEnv → Bool
  | [] => false
  | env :: envs =>
    if late < env.completions.length ∨ deadline ≤ env.now then false
    else isBadPoll (cpaStatusToVesalStatusCode env.status) ||
      badPollFirst (late - env.completions.length) deadline envs

def oldestDeadline (env : SyncEnv) (st : EngineState) : Nat :=
  match st.timers.timers with
  | [] => env.submit.now + st.timers.timeoutTs
  | t :: _ => t.onfiredTs

def FatalBeforeResult (cfg : ChannelConfig) (env : SyncEnv) (st : EngineState) : Prop :=
  isHaEnabled cfg.opts.haPolicy = false ∧ st.codecResults = [] ∧
    badPollFirst (lateNum st) (oldestDeadline env st) env.polls = true

def MeetsOwnResult (cfg : ChannelConfig) (env : SyncEnv) (call : SyncCall) (st : EngineState) : Prop :=
  (FatalBeforeResult cfg env st → ∀ args, call ≠ .submit args) ∧
    (¬ FatalBeforeResult cfg env st → cfg.userCb = false ∧ NothingPending st)

variable {cfg : ChannelConfig} {st st' : EngineState}

/-- The engine while the call has got no result: `late` requests that timed out are still in
the hardware, and the oldest request in flight has its deadline. If it is `alone`, then it is
the one of the call. -/
structure Waiting (cfg : ChannelConfig) (alone : Prop) (info : FrameMeta) (late deadline : Nat)
    (st : EngineState) : Prop where
  ring : Standing cfg.size st.toInFlight
  notFatal : st.isFatal = false
  codecResults : st.codecResults = []
  late : lateNum st = late
  timers : ∃ t ts, st.timers.timers = t :: ts ∧ t.onfiredTs = deadline ∧
    (alone → ts = [] ∧ (st.metas t.timerArg).info = info)

def OkFrom (info : FrameMeta) (evs : List Completion) (late : Nat) (r : CodecResult) : Prop :=
  r.status = .kOk → ∃ ev, evs[late]? = some ev ∧ Succeeds info ev r

variable {alone : Prop} {info : FrameMeta} {late deadline : Nat}

variable {env : PollEnv} {x : CodecResult} {xs : List CodecResult} {r : SyncReturn}

lemma Waiting.quiet (h : Waiting cfg alone info late deadline st)
    (hpoll : pollHardware cfg.toEngineConfig env st = .ok st')
    (hquiet : ¬ (late < env.completions.length ∨ deadline ≤ env.now)) :
    Waiting cfg alone info (late - env.completions.length) deadline st' := by
  obtain ⟨answers, timeouts, hpolled⟩ := pollHardware_answers h.ring hpoll
  obtain ⟨t, ts, htimers, hdeadline, halone⟩ := h.timers
  obtain ⟨hadv, hfatal, -⟩ : EngineAdvances cfg.toEngineConfig False st [] [] st' [] [] ∧ _ :=
    pollHardware_advances h.ring hpoll False.elim
  simp only [not_or, not_lt, not_le] at hquiet
  have hsub : env.completions.length - lateNum st = 0 := by
    rw [h.late]
    omega
  have hnotdue : decide (t.onfiredTs ≤ env.now) = false := by
    rw [hdeadline]
    exact decide_eq_false (not_le.mpr hquiet.2)
  have htimers' : st'.timers.timers = t :: ts := by
    rw [hpolled.timers, leftInFlight, hsub, htimers, drop_zero, dropWhile_cons_of_neg (by simp [hnotdue])]
  have hanswers : answers = [] := by
    have hanswered := hpolled.answered
    rw [h.late, drop_eq_nil_of_le hquiet.1, zip_nil_left] at hanswered
    cases hanswered
    rfl
  have htimeouts : timeouts = [] := by
    rw [← length_eq_zero_iff, hpolled.expired, hsub, htimers, drop_zero,
      takeWhile_cons_of_neg (by simp [hnotdue]), length_nil]
  refine ⟨hadv.ring, hfatal.trans h.notFatal, ?_, ?_, t, ts, htimers', hdeadline, fun hal => ?_⟩
  · rw [hpolled.codecResults, hanswers, htimeouts, h.codecResults]
    rfl
  · have hlate := h.late
    simp only [lateNum, hpolled.hw, htimers', htimers] at hlate ⊢
    omega
  · rw [hpolled.info]
    exact halone hal

lemma Waiting.answer (h : Waiting cfg alone info late deadline st)
    (hpoll : pollHardware cfg.toEngineConfig env st = .ok st')
    (hanswer : late < env.completions.length ∨ deadline ≤ env.now) :
    ∃ r rs, st'.codecResults = r :: rs ∧ (alone → OkFrom info env.completions late r) := by
  obtain ⟨answers, timeouts, hpolled⟩ := pollHardware_answers h.ring hpoll
  obtain ⟨t, ts, htimers, hdeadline, halone⟩ := h.timers
  have hresults := hpolled.codecResults
  rw [h.codecResults, nil_append] at hresults
  have hanswered := hpolled.answered
  rw [h.late, htimers] at hanswered
  by_cases hcompleted : late < env.completions.length
  · rw [drop_eq_getElem_cons hcompleted, zip_cons_cons] at hanswered
    cases hanswered with
    | @cons _ r _ rs hr _ =>
      refine ⟨r, rs ++ timeouts, hresults, fun hal hok => ?_⟩
      unfold Answers at hr
      rw [(halone hal).2] at hr
      exact ⟨_, getElem?_eq_getElem hcompleted, hr.ok hok⟩
  · have hdue := hanswer.resolve_left hcompleted
    rw [drop_eq_nil_of_le (not_lt.mp hcompleted), zip_nil_left] at hanswered
    cases hanswered
    have hlen := hpolled.expired
    rw [h.late, Nat.sub_eq_zero_of_le (not_lt.mp hcompleted), htimers, drop_zero,
      takeWhile_cons_of_pos (by simpa [hdeadline] using hdue), length_cons] at hlen
    cases timeouts with
    | nil => simp at hlen
    | cons r rs =>
      refine ⟨r, rs, hresults, fun _ hok => ?_⟩
      have htimedOut := hpolled.timedOut r mem_cons_self
      rw [hok] at htimedOut
      exact absurd htimedOut (by decide)

lemma pollHardware_buffered (hring : Standing cfg.size st.toInFlight)
    (hpoll : pollHardware cfg.toEngineConfig env st = .ok st') (hresults : st.codecResults = x :: xs) :
    ∃ ys, st'.codecResults = x :: ys := by
  obtain ⟨answers, timeouts, hpolled⟩ := pollHardware_answers hring hpoll
  exact ⟨xs ++ (answers ++ timeouts), by rw [hpolled.codecResults, hresults]; rfl⟩

lemma popBufferedResults_one (h : st.codecResults = x :: xs) :
    popBufferedResults 1 st = ([x], { st with codecResults := xs }) := by
  simp [popBufferedResults, h]

lemma popBufferedResults_none (h : st.codecResults = []) :
    popBufferedResults 1 st = ([], st) := by
  cases st
  subst h
  rfl

lemma poll_buffered {n : Int} {results : List CodecResult} (hring : Standing cfg.size st.toInFlight)
    (hresults : st.codecResults = x :: xs)
    (h : EngineState.poll cfg.toEngineConfig env 1 st = .ok (n, results, st')) : n = 1 ∧ results = [x] := by
  unfold EngineState.poll at h
  split at h
  · rw [popBufferedResults_one hresults] at h
    cases h
    exact ⟨rfl, rfl⟩
  · split at h
    · cases h
    rename_i st₁ hpoll
    obtain ⟨ys, hys⟩ := pollHardware_buffered hring hpoll hresults
    rw [popBufferedResults_one hys] at h
    dsimp only at h
    split at h
    · rw [if_neg (by simp)] at h
      cases h
      exact ⟨rfl, rfl⟩
    · cases h
      exact ⟨rfl, rfl⟩

variable {eng : EngineConfig} {args : CodecRequestArgs}

lemma retired_results (hresults : st.codecResults = []) (htimers : st.timers.timers ≠ []) :
    ∃ x xs, (retired eng st).codecResults = x :: xs ∧ x.status = .kDropped := by
  let st₁ := { st with codecResults := modifyAll st.codecResults .kDropped }
  obtain ⟨rs, hpushed, hlen, hall⟩ := foldl_pushes (f := EngineState.interceptInflightReq eng .kDropped)
    (fun slot st => ⟨(st.metas slot).info.userCtx, rfl⟩) st.timers.timers
    (st₁.onInFlight fun s => { s with timers := s.timers.clearAndGetUserArg.2 })
  have hdropped : (retired eng st).codecResults = rs := by
    refine Eq.trans ?_ (hpushed.trans ?_)
    · simp only [retired, clearRetiredQat, onInFlight, dropInflightReqsAndGenDummyResults,
        clearAndGetUserArg, foldl_map]
      rfl
    · simp [onInFlight, st₁, hresults, modifyAll]
  cases rs with
  | nil => exact absurd (length_eq_zero_iff.mp hlen.symm) htimers
  | cons x xs => exact ⟨x, xs, hdropped, hall x mem_cons_self⟩

structure Dropped (cfg : ChannelConfig) (st : EngineState) : Prop where
  ring : Standing cfg.size st.toInFlight
  result : ∃ x xs, st.codecResults = x :: xs ∧ x.status = .kDropped

lemma pollHa_nil (eng : EngineConfig) (env : PollEnv) (st : EngineState) :
    (pollHa eng env [] st).2 =
      if isBadPoll (cpaStatusToVesalStatusCode env.status) then
        (handleHa eng env.ha 0 (cpaStatusToVesalStatusCode env.status) st).2
      else st := by
  unfold pollHa
  dsimp only
  split <;> rfl

lemma Waiting.poll {n : Int} {results : List CodecResult} (h : Waiting cfg alone info late deadline st)
    (hpoll : EngineState.poll cfg.toEngineConfig env 1 st = .ok (n, results, st')) :
    let answered := late < env.completions.length ∨ deadline ≤ env.now
    let fatal := isHaEnabled cfg.opts.haPolicy = false ∧
      isBadPoll (cpaStatusToVesalStatusCode env.status) = true
    (answered ∧ ∃ x, n = 1 ∧ results = [x] ∧ (alone → OkFrom info env.completions late x)) ∨
    (¬ answered ∧ fatal ∧ n = -1 ∧ results = []) ∨
    (¬ answered ∧ ¬ fatal ∧ n = 0 ∧ results = [] ∧
      (Waiting cfg alone info (late - env.completions.length) deadline st' ∨
        isHaEnabled cfg.opts.haPolicy = true ∧ Dropped cfg st')) := by
  intro answered fatal
  have hadv : EngineAdvances cfg.toEngineConfig False st [] [] st' [] ([] ++ results) :=
    poll_advances h.ring hpoll False.elim
  unfold EngineState.poll at hpoll
  rw [h.notFatal, if_neg Bool.false_ne_true] at hpoll
  split at hpoll
  · cases hpoll
  rename_i st₁ hhardware
  by_cases hanswer : answered
  · obtain ⟨x, xs, hx, hok⟩ := h.answer hhardware hanswer
    rw [popBufferedResults_one hx] at hpoll
    dsimp only at hpoll
    split at hpoll
    · rw [if_neg (by simp)] at hpoll
      cases hpoll
      exact Or.inl ⟨hanswer, x, rfl, rfl, hok⟩
    · cases hpoll
      exact Or.inl ⟨hanswer, x, rfl, rfl, hok⟩
  · have hquiet := h.quiet hhardware hanswer
    rw [popBufferedResults_none hquiet.codecResults] at hpoll
    dsimp only at hpoll
    split at hpoll
    · rename_i hha
      simp only [Bool.not_eq_true'] at hha
      split at hpoll
      · rename_i hbad
        cases hpoll
        exact Or.inr (Or.inl ⟨hanswer, ⟨hha, hbad.2⟩, rfl, rfl⟩)
      · rename_i hgood
        cases hpoll
        refine Or.inr (Or.inr ⟨hanswer, fun hbad => hgood ⟨rfl, hbad.2⟩, rfl, rfl, Or.inl hquiet⟩)
    · rename_i hha
      have hha' : isHaEnabled cfg.opts.haPolicy = true := by simpa using hha
      cases hpoll
      have hnotfatal : ¬ fatal := fun hfatal => Bool.false_ne_true (hfatal.1.symm.trans hha')
      refine Or.inr (Or.inr ⟨hanswer, hnotfatal, rfl, rfl, ?_⟩)
      rw [pollHa_nil] at hadv ⊢
      split
      · -- a bad poll is recorded, or the unit is left
        rename_i hbad
        rw [if_pos hbad] at hadv
        rcases handleHa_cases cfg.toEngineConfig env.ha 0 (cpaStatusToVesalStatusCode env.status) st₁ with
          ⟨-, errorTs, heq⟩ | ⟨-, errorTs, heq⟩
        · rw [heq]
          exact Or.inl ⟨hquiet.ring, hquiet.notFatal, hquiet.codecResults, hquiet.late, hquiet.timers⟩
        · rw [heq] at hadv ⊢
          obtain ⟨t, ts, htimers, -⟩ := hquiet.timers
          have hresults : ∃ x xs, (retired cfg.toEngineConfig { st₁ with errorTs := errorTs }).codecResults =
              x :: xs ∧ x.status = .kDropped :=
            retired_results hquiet.codecResults (by simp [htimers])
          exact Or.inr ⟨hha', hadv.ring, hresults⟩
      · exact Or.inl hquiet

structure Takes (cfg : ChannelConfig) (x : CodecResult) (r : SyncReturn) : Prop where
  result : r.result = x
  popped : r.popped = [x]
  callbacks : r.callbacks = if cfg.userCb then [x] else []

lemma pollUntilReturned_buffered {envs : List PollEnv} {pollNum : Nat} {res : CodecResult}
    (hring : Standing cfg.size st.toInFlight) (hresults : st.codecResults = x :: xs)
    (h : pollUntilReturned cfg envs pollNum res st = .ok (some r)) :
    Takes cfg x r ∧ r.pollNum = pollNum + 1 ∧ envs ≠ [] := by
  cases envs with
  | nil => cases h
  | cons env envs =>
    unfold pollUntilReturned CodecChannel.poll at h
    cases hpoll : EngineState.poll cfg.toEngineConfig env 1 st with
    | error fault => simp [hpoll] at h
    | ok polled =>
      obtain ⟨n, results, st₁⟩ := polled
      obtain ⟨rfl, rfl⟩ := poll_buffered hring hresults hpoll
      simp only [hpoll, one_ne_zero, if_false, Except.ok.injEq, some.injEq] at h
      subst h
      exact ⟨⟨rfl, rfl, by simp⟩, rfl, by simp⟩

lemma OkFrom.mono {evs : List Completion} {r : CodecResult} (n : Nat) (before : List Completion)
    (hlen : before.length ≤ n) (h : OkFrom info evs (n - before.length) r) :
    OkFrom info (before ++ evs) n r := by
  intro hok
  obtain ⟨ev, hev, hsucceeds⟩ := h hok
  exact ⟨ev, by rw [getElem?_append_right hlen, hev], hsucceeds⟩

lemma Waiting.returns {envs : List PollEnv} {pollNum : Nat} {res : CodecResult}
    (h : Waiting cfg alone info late deadline st)
    (hreturn : pollUntilReturned cfg envs pollNum res st = .ok (some r)) :
    let fatal := isHaEnabled cfg.opts.haPolicy = false ∧ badPollFirst late deadline envs = true
    ∃ k, r.pollNum = pollNum + k ∧
      ((fatal ∧ r.result = res ∧ r.popped = [] ∧ r.callbacks = [] ∧
        ((envs.take k).flatMap PollEnv.completions).length ≤ late) ∨
      (¬ fatal ∧ ∃ x, Takes cfg x r ∧
        (alone → OkFrom info ((envs.take k).flatMap PollEnv.completions) late x))) := by
  induction envs generalizing st late pollNum res with
  | nil => cases hreturn
  | cons env envs ih =>
    intro fatal
    unfold pollUntilReturned CodecChannel.poll at hreturn
    cases hpoll : EngineState.poll cfg.toEngineConfig env 1 st with
    | error fault => simp [hpoll] at hreturn
    | ok polled =>
      obtain ⟨n, results, st₁⟩ := polled
      rw [hpoll] at hreturn
      dsimp only at hreturn
      rcases h.poll hpoll with ⟨hanswer, x, rfl, rfl, hok⟩ | ⟨hquiet, hbad, rfl, rfl⟩ |
        ⟨hquiet, hgood, rfl, rfl, hnext⟩
      · simp only [one_ne_zero, if_false, Except.ok.injEq, some.injEq] at hreturn
        subst hreturn
        refine ⟨1, rfl, Or.inr ⟨?_, x, ⟨rfl, rfl, by simp⟩, fun hal => ?_⟩⟩
        · simp [fatal, badPollFirst, hanswer]
        · simpa using hok hal
      · simp only [headD_nil, if_false, Except.ok.injEq, some.injEq, Int.reduceNeg,
          neg_eq_zero, one_ne_zero] at hreturn
        subst hreturn
        refine ⟨1, rfl, Or.inl ⟨⟨hbad.1, ?_⟩, rfl, rfl, by simp, ?_⟩⟩
        · simp [badPollFirst, hquiet, hbad.2]
        · simp only [not_or, not_lt] at hquiet
          simpa using hquiet.1
      · simp only [headD_nil, if_true] at hreturn
        have hlen : env.completions.length ≤ late := by
          simp only [not_or, not_lt] at hquiet
          exact hquiet.1
        rcases hnext with hnext | ⟨hha, hdropped⟩
        · obtain ⟨k, hk, hcase⟩ := ih hnext hreturn
          have hfatal : (isHaEnabled cfg.opts.haPolicy = false ∧
              badPollFirst (late - env.completions.length) deadline envs = true) ↔ fatal := by
            refine and_congr_right fun hha => ?_
            have hstatus : isBadPoll (cpaStatusToVesalStatusCode env.status) = false := by
              rw [← Bool.not_eq_true]
              exact fun hbad => hgood ⟨hha, hbad⟩
            simp [badPollFirst, hquiet, hstatus]
          simp only [hfatal] at hcase
          refine ⟨k + 1, by omega, ?_⟩
          rw [take_succ_cons, flatMap_cons]
          rcases hcase with ⟨hf, hres, hpopped, hcallbacks, hseen⟩ | ⟨hf, x, htakes, hok⟩
          · refine Or.inl ⟨hf, hres, hpopped, hcallbacks, ?_⟩
            rw [length_append]
            omega
          · exact Or.inr ⟨hf, x, htakes, fun hal => (hok hal).mono late env.completions hlen⟩
        · obtain ⟨x, xs, hx, hstatus⟩ := hdropped.result
          obtain ⟨htakes, hk, -⟩ := pollUntilReturned_buffered hdropped.ring hx hreturn
          refine ⟨2, hk, Or.inr ⟨?_, x, htakes, fun _ hok => ?_⟩⟩
          · simp [fatal, hha]
          · rw [hstatus] at hok
            exact absurd hok (by decide)

lemma Admitted.submits (h : Admitted eng args st) (env : SubmitEnv) :
    ∃ st', submitAsyncRequest eng env args st = .ok (env.driver, st') := by
  obtain ⟨srcBuf, dstBuf, bufs, filled, hbufs, hfill⟩ := h.filled
  have hprepare : ∃ st₁, prepareCommonReqData eng args st = .ok (true, st₁) := by
    unfold prepareCommonReqData
    rw [if_neg (not_lt.mpr h.blocks)]
    simp [onInFlight, InFlight.setMeta, hbufs, hfill]
  obtain ⟨st₁, hprepare⟩ := hprepare
  unfold submitAsyncRequest
  simp only [h.options, h.alive, h.slot, hprepare]
  by_cases hdriver : env.driver = .kOk
  · simp [hdriver]
  · simp [hdriver]

lemma submitAsyncRequest_accepted {env : SubmitEnv} (h : submitAsyncRequest eng env args st = .ok (.kOk, st')) :
    Admitted eng args st ∧ env.driver = .kOk ∧ ∃ st₁, Prepared eng args true st st₁ ∧
      st' = st₁.onInFlight fun s =>
        (s.submit (s.cbPool (eng.size.slotOf st.nextReqId))).tagInFlight env.now
          (eng.size.slotOf st.nextReqId) := by
  rcases submitAsyncRequest_cases h with ⟨hstatus, -⟩ | ⟨hopt, hfatal, hfull, ok, st₁, hprepare, hcase⟩
  · exact absurd rfl hstatus
  · rcases hcase with ⟨-, hstatus, -⟩ | ⟨rfl, hdriver, -, rfl⟩ | ⟨-, hdriver, hstatus, -⟩
    · exact absurd rfl hstatus
    · exact ⟨admitted_of_prepared hopt hfatal hfull hprepare, hdriver, st₁, prepareCommonReqData_prepared hprepare, rfl⟩
    · exact absurd hstatus.symm hdriver

lemma waiting_of_accepted {env : SyncEnv} (hring : Standing cfg.size st.toInFlight)
    (hresults : st.codecResults = [])
    (h : submitAsyncRequest cfg.toEngineConfig env.submit args st = .ok (.kOk, st')) :
    Waiting cfg (st.timers.timers = []) (frameMetaOf args) (lateNum st) (oldestDeadline env st) st' := by
  have hadv : EngineAdvances cfg.toEngineConfig False st [] [] st'
      (if StatusCode.kOk = .kOk then [] ++ [args] else []) [] :=
    submitAsyncRequest_advances hring h False.elim
  obtain ⟨hadmitted, -, st₁, hprep, rfl⟩ := submitAsyncRequest_accepted h
  refine ⟨hadv.ring, hprep.isFatal.trans hadmitted.alive, hprep.codecResults.trans hresults, ?_, ?_⟩
  · simp only [lateNum, onInFlight, InFlight.tagInFlight, InFlight.submit, InFlight.setMeta,
      addTimer, length_append, hprep.timers, hprep.hw, length_singleton]
    omega
  · simp only [onInFlight, InFlight.tagInFlight, InFlight.submit, InFlight.setMeta,
      addTimer, hprep.timers, oldestDeadline]
    cases hts : st.timers.timers with
    | nil =>
      refine ⟨_, [], rfl, rfl, fun _ => ⟨rfl, ?_⟩⟩
      rw [update_self, ← hprep.nextReqId]
      exact hprep.info rfl
    | cons t ts => exact ⟨t, _, rfl, rfl, fun hal => by simp at hal⟩

def initialResult : SyncCall → CodecResult
  | .submit _ => { noResult with status := .kOk }
  | _ => noResult

/-- All the calls as one: the request is submitted, and the result `res` is what the loop starts from. -/
def issue (cfg : ChannelConfig) (env : SyncEnv) (res : CodecResult) (st : EngineState) :
    Option CodecRequestArgs → Except EngineFault (Option SyncReturn)
  | none => .ok (some (refused .kInvalidArgument st))
  | some args =>
    if st.closed then .error .nullPointer
    else
      match submitAsyncRequest cfg.toEngineConfig env.submit args st with
      | .error fault => .error fault
      | .ok (status, st) =>
        if status ≠ .kOk then .ok (some (refused status st))
        else pollUntilReturned cfg env.polls 0 res st

lemma run_eq_issue (cfg : ChannelConfig) (env : SyncEnv) (st : EngineState) (call : SyncCall) :
    call.run cfg env st = issue cfg env (initialResult call) st (requestOf cfg call) := by
  have hsgl : ∀ dir src srcLen dst dstLen, sglCall cfg dir env src srcLen dst dstLen st =
      issue cfg env noResult st (sglRequest cfg dir src srcLen dst dstLen) := by
    intro dir src srcLen dst dstLen
    unfold sglCall sglRequest
    split <;> rfl
  cases call with
  | compress src srcLen dst dstLen => exact hsgl _ _ _ _ _
  | compressSGL src srcLen dst dstLen => exact hsgl _ _ _ _ _
  | decompress src srcLen dst dstLen => exact hsgl _ _ _ _ _
  | decompressSGL src srcLen dst dstLen => exact hsgl _ _ _ _ _
  | submit args =>
    simp only [SyncCall.run, submit, requestOf, initialResult, issue]
    cases submitAsyncRequest cfg.toEngineConfig env.submit args st with
    | error fault => rfl
    | ok submitted =>
      by_cases hstatus : submitted.1 = .kOk
      · simp only [hstatus]
      · simp only [hstatus, ne_eq, not_false_eq_true, if_true]

variable {call : SyncCall} {run : CodecRun}

lemma run_cases {env : SyncEnv} (h : call.run cfg env st = .ok (some r)) :
    (¬ SyncAccepted cfg env call st ∧ ∃ status st₁, status ≠ .kOk ∧ r = refused status st₁) ∨
    (∃ args st₁, requestOf cfg call = some args ∧ st.closed = false ∧
      submitAsyncRequest cfg.toEngineConfig env.submit args st = .ok (.kOk, st₁) ∧
      pollUntilReturned cfg env.polls 0 (initialResult call) st₁ = .ok (some r)) := by
  rw [run_eq_issue] at h
  unfold issue at h
  split at h
  · rename_i hrequest
    cases h
    refine Or.inl ⟨?_, .kInvalidArgument, st, by decide, rfl⟩
    rintro ⟨args, hargs, -⟩
    rw [hrequest] at hargs
    cases hargs
  rename_i args hrequest
  split at h
  · cases h
  rename_i hclosed
  split at h
  · cases h
  rename_i status st₁ hsubmit
  split at h
  · rename_i hstatus
    cases h
    refine Or.inl ⟨?_, status, st₁, hstatus, rfl⟩
    rintro ⟨args', hargs', hadmitted, hdriver⟩
    rw [hrequest, some.injEq] at hargs'
    subst hargs'
    obtain ⟨st₂, hsubmit'⟩ := hadmitted.submits env.submit
    rw [hsubmit] at hsubmit'
    cases hsubmit'
    exact hstatus hdriver
  · rename_i hstatus
    rw [not_not.mp hstatus] at hsubmit
    exact Or.inr ⟨args, st₁, hrequest, by simpa using hclosed, hsubmit, h⟩

lemma Kept.nothingPending_iff (h : Kept eng run) :
    NothingPending run.engine ↔ run.returned.length = run.accepted.length := by
  have hlen := h.ledger.length
  simp only [codecBooks, outcomes, length_map, length_append] at hlen
  unfold NothingPending
  rw [← length_eq_zero_iff, ← length_eq_zero_iff]
  omega

lemma Takes.ownOutcome_iff {env : SyncEnv} (h : Takes cfg x r) (hkept : Kept cfg.toEngineConfig run)
    (hrequest : requestOf cfg call = some args) (hok : NothingPending run.engine →
      OkFrom (frameMetaOf args) (completionsIn env r) run.engine.hw.length x) :
    OwnOutcome cfg env call run r ↔ cfg.userCb = false ∧ NothingPending run.engine := by
  constructor
  · intro hown
    have hsilent := hown.silent
    rw [h.callbacks] at hsilent
    refine ⟨?_, ?_⟩
    · cases hcb : cfg.userCb with
      | false => rfl
      | true => simp [hcb] at hsilent
    · rcases hown.own with hpopped | ⟨-, hlen⟩
      · rw [h.popped] at hpopped
        cases hpopped
      · exact hkept.nothingPending_iff.mpr hlen
  · rintro ⟨hcb, hpending⟩
    refine ⟨Or.inr ⟨by rw [h.popped]; rfl, hkept.nothingPending_iff.mp hpending⟩, fun hstatus => ?_, ?_⟩
    · rw [h.result] at hstatus ⊢
      obtain ⟨ev, hev, hsucceeds⟩ := hok hpending hstatus
      exact ⟨args, ev, hrequest, hev, hsucceeds⟩
    · rw [h.callbacks, hcb]
      rfl

/-- A synchronous call on a channel that was not closed gives the outcome of its own request
if and only if it is refused, or it finds no earlier request and no `user_cb`, or it is a call
for vectors whose engine becomes fatal before it has a result. -/
theorem sync_call_own_outcome_iff (cfg : ChannelConfig) (pool : PoolState) (run : CodecRun)
    (hruns : CodecRuns cfg.toEngineConfig (fun _ _ => True) (initCodecRun cfg.toEngineConfig pool) run)
    (env : SyncEnv) (call : SyncCall) (r : SyncReturn) (hcall : call.run cfg env run.engine = .ok (some r)) :
    OwnOutcome cfg env call run r ↔
      (SyncAccepted cfg env call run.engine → MeetsOwnResult cfg env call run.engine) := by
  rcases run_cases hcall with ⟨hrefused, status, st₁, hstatus, rfl⟩ |
    ⟨args, st₁, hrequest, hclosed, hsubmit, hreturn⟩
  · refine iff_of_true ⟨Or.inl rfl, fun hok => absurd hok hstatus, rfl⟩ fun hacc => absurd hacc hrefused
  · have hkept := kept_of_open hruns hclosed
    obtain ⟨hadmitted, hdriver, st₂, hprep, hst₁⟩ := submitAsyncRequest_accepted hsubmit
    have hacc : SyncAccepted cfg env call run.engine := ⟨args, hrequest, hadmitted, hdriver⟩
    rw [forall_prop_of_true hacc]
    cases hresults : run.engine.codecResults with
    | cons x xs =>
      -- an earlier result is taken out
      have hnotfatal : ¬ FatalBeforeResult cfg env run.engine := fun hfatal => by
        rw [FatalBeforeResult, hresults] at hfatal
        cases hfatal.2.1
      have hadv : EngineAdvances cfg.toEngineConfig False run.engine [] [] st₁
          (if StatusCode.kOk = .kOk then [] ++ [args] else []) [] :=
        submitAsyncRequest_advances hkept.ring hsubmit False.elim
      have hresults₁ : st₁.codecResults = x :: xs := by
        rw [hst₁]
        exact hprep.codecResults.trans hresults
      obtain ⟨htakes, -, -⟩ := pollUntilReturned_buffered hadv.ring hresults₁ hreturn
      have hpending : ¬ NothingPending run.engine := fun hpending => by
        rw [NothingPending, hresults] at hpending
        cases hpending.2
      rw [htakes.ownOutcome_iff hkept hrequest fun h => absurd h hpending, MeetsOwnResult]
      simp [hnotfatal]
    | nil =>
      have hwaiting : Waiting cfg (run.engine.timers.timers = []) (frameMetaOf args) (lateNum run.engine)
          (oldestDeadline env run.engine) st₁ := waiting_of_accepted hkept.ring hresults hsubmit
      obtain ⟨k, hk, hcase⟩ := hwaiting.returns hreturn
      rw [Nat.zero_add] at hk
      have hiff : (isHaEnabled cfg.opts.haPolicy = false ∧
          badPollFirst (lateNum run.engine) (oldestDeadline env run.engine) env.polls = true) ↔
          FatalBeforeResult cfg env run.engine := by
        simp [FatalBeforeResult, hresults]
      simp only [hiff, ← hk] at hcase
      rcases hcase with ⟨hfatal, hres, hpopped, hcallbacks, hseen⟩ | ⟨hnotfatal, x, htakes, hok⟩
      · -- the engine is fatal, and the call ends with the result that it started from
        rw [MeetsOwnResult]
        simp only [hfatal, not_true_eq_false, forall_true_left, IsEmpty.forall_iff, and_true]
        constructor
        · rintro hown args' rfl
          obtain ⟨-, ev, -, hev, -⟩ := hown.ok (by rw [hres]; rfl)
          obtain ⟨hlt, -⟩ := List.getElem?_eq_some_iff.mp hev
          have hlate : lateNum run.engine ≤ run.engine.hw.length := Nat.sub_le _ _
          simp only [completionsIn] at hlt
          omega
        · intro hne
          have hinit : initialResult call = noResult := by
            cases call with
            | submit args' => exact absurd rfl (hne args')
            | _ => rfl
          refine ⟨Or.inl hpopped, fun hstatus => ?_, hcallbacks⟩
          rw [hres, hinit] at hstatus
          cases hstatus
      · rw [htakes.ownOutcome_iff hkept hrequest fun hpending => ?_, MeetsOwnResult]
        · simp [hnotfatal]
        · have hlate : lateNum run.engine = run.engine.hw.length := by
            simp [lateNum, hpending.1]
          rw [← hlate]
          exact hok hpending.1

def sampleChannel (userCb : Bool) : ChannelConfig :=
  { sampleConfig .kNone with userCb := userCb, compAlgorithm := .kDeflate, compLevel := .kLevel1 }

def polledOnce (completions : List Completion) (status : CpaStatus) : SyncEnv where
  submit := ⟨.kOk, 0, sampleHaEnv true⟩
  polls := [⟨completions, status, 1, fun _ => 1, 1, sampleHaEnv true⟩]

def returns (o : Except EngineFault (Option SyncReturn)) (p : CodecResult → Nat → Bool) : Bool :=
  match o with
  | .ok (some r) => p r.result r.pollNum
  | _ => false

lemma exists_of_returns {o : Except EngineFault (Option SyncReturn)} {p : CodecResult → Nat → Bool}
    (h : returns o p = true) : ∃ r, o = .ok (some r) ∧ p r.result r.pollNum = true := by
  unfold returns at h
  split at h
  · exact ⟨_, rfl, h⟩
  · cases h

/-- After another request was returned, `Compress` reports its own success. -/
theorem sync_call_own_outcome_compress :
    ∃ run r, CodecRuns (sampleChannel false).toEngineConfig (fun _ _ => True)
        (initCodecRun (sampleChannel false).toEngineConfig samplePool) run ∧ run.returned.length = 1 ∧
      SyncCall.run (sampleChannel false) (polledOnce [sampleCompletion] .success) run.engine (.compress 4096 8 8192 64) =
        .ok (some r) ∧ r.result.status = .kOk ∧
      OwnOutcome (sampleChannel false) (polledOnce [sampleCompletion] .success) (.compress 4096 8 8192 64) run r := by
  obtain ⟨run, hruns, -, hgoal⟩ := Library.exists_runs_of_reaches (codecStep (sampleChannel false).toEngineConfig)
    (initCodecRun (sampleChannel false).toEngineConfig samplePool)
    [submitAt 0 .kOk 7, pollAt 5 [sampleCompletion] .success true] (fun _ _ => true)
    (fun run => decide (run.returned.length = 1 ∧ NothingPending run.engine) &&
      returns (SyncCall.run (sampleChannel false) (polledOnce [sampleCompletion] .success) run.engine
        (.compress 4096 8 8192 64)) fun result _ => result.status == .kOk)
    (fun _ _ _ => trivial) (by decide)
  rw [Bool.and_eq_true, decide_eq_true_iff] at hgoal
  obtain ⟨⟨hreturned, hpending⟩, hreturns⟩ := hgoal
  obtain ⟨r, hreturn, hcheck⟩ := exists_of_returns hreturns
  refine ⟨run, r, hruns, hreturned, hreturn, by simpa using hcheck, ?_⟩
  refine (sync_call_own_outcome_iff (sampleChannel false) samplePool run hruns
    (polledOnce [sampleCompletion] .success) (.compress 4096 8 8192 64) r hreturn).mpr fun _ => ?_
  exact ⟨fun _ _ => nofun, fun _ => ⟨rfl, hpending⟩⟩

/-- `Submit` reports success when the engine becomes fatal before the hardware has completed
anything. -/
theorem sync_call_fatal_reports_ok :
    ∃ r, SyncCall.run (sampleChannel false) (polledOnce [] .fail)
        (initCodecRun (sampleChannel false).toEngineConfig samplePool).engine
        (.submit (sampleArgs 7)) = .ok (some r) ∧ r.result.status = .kOk ∧
      ¬ OwnOutcome (sampleChannel false) (polledOnce [] .fail) (.submit (sampleArgs 7))
        (initCodecRun (sampleChannel false).toEngineConfig samplePool) r := by
  obtain ⟨r, hreturn, hcheck⟩ := exists_of_returns
    (o := SyncCall.run (sampleChannel false) (polledOnce [] .fail)
      (initCodecRun (sampleChannel false).toEngineConfig samplePool).engine (.submit (sampleArgs 7)))
    (p := fun result pollNum => result.status == .kOk && pollNum == 1) (by decide)
  simp only [Bool.and_eq_true, beq_iff_eq] at hcheck
  refine ⟨r, hreturn, hcheck.1, fun hown => ?_⟩
  obtain ⟨-, ev, -, hev, -⟩ := hown.ok hcheck.1
  simp [completionsIn, polledOnce, hcheck.2] at hev

end Vesal.Proofs
