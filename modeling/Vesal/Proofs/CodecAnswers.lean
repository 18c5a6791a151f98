import Vesal.Proofs.CodecDelivery

/-! # What polling the hardware answers -/

namespace Vesal.Proofs

open EngineState List

variable {cfg : EngineConfig} {st st' : EngineState}

def lateNum (st : EngineState) : Nat := st.hw.length - st.timers.timers.length

def Answers (st : EngineState) (answered : Completion × TimeoutContext Nat) (r : CodecResult) : Prop :=
  ResultOf (st.metas answered.2.timerArg).info answered.1 r

structure Answered (evs : List Completion) (st st' : EngineState) (answers : List CodecResult) : Prop where
  codecResults : st'.codecResults = st.codecResults ++ answers
  answers : List.Forall₂ (Answers st) ((evs.drop (lateNum st)).zip st.timers.timers) answers
  timers : st'.timers.timers = st.timers.timers.drop (evs.length - lateNum st)
  hw : st'.hw.length = st.hw.length - evs.length
  info : ∀ slot, (st'.metas slot).info = (st.metas slot).info

lemma answered_nil (hring : Standing cfg.size st.toInFlight) (evs : List Completion)
    (h : evs = [] ∨ st.hw = []) : Answered evs st st [] := by
  rcases h with rfl | hhw
  · exact ⟨by simp, by simp, by simp, by simp, fun _ => rfl⟩
  · have hts : st.timers.timers = [] := by
      have hle := hring.ts_le
      rw [hhw] at hle
      exact length_eq_zero_iff.mp (Nat.le_zero.mp hle)
    exact ⟨by simp, by simp [hts], by simp [hts], by simp [hhw], fun _ => rfl⟩

lemma calledBack_info (st : EngineState) (results : List CodecResult) (pool : PoolState)
    (slot : Option Nat) (c a : Nat) :
    (((calledBack st results pool).onInFlight (·.cleanUpReqData cfg.dev slot (some c))).metas a).info =
      (st.metas a).info :=
  (sameRequest_cleanUpReqData cfg.dev slot c a (calledBack st results pool).toInFlight).info

variable {ev : Completion} {c : Nat} {hw : List Nat}

lemma callback_late (hring : Standing cfg.size st.toInFlight) (hhw : st.hw = c :: hw)
    (hlate : 0 < lateNum st) (h : callback cfg ev c (st.onInFlight fun s => { s with hw := hw }) = .ok st') :
    st'.codecResults = st.codecResults ∧ st'.timers = st.timers ∧
      ∀ slot, (st'.metas slot).info = (st.metas slot).info := by
  rcases callback_cases h with ⟨-, pool, rfl⟩ | ⟨hvalid, -⟩
  · refine ⟨append_nil _, ?_, fun slot => ?_⟩
    · exact resetCb_proj (·.timers) (fun _ _ _ _ => rfl) cfg.dev c _
    · exact calledBack_info _ _ _ _ c slot
  · obtain ⟨t, ts, hts, hlen, -⟩ := hring.head_valid hhw hvalid
    simp only [lateNum, hhw, hts, length_cons, hlen, Nat.sub_self, lt_irrefl] at hlate

lemma callback_answers (hring : Standing cfg.size st.toInFlight) (hhw : st.hw = c :: hw)
    (hlate : lateNum st = 0) (h : callback cfg ev c (st.onInFlight fun s => { s with hw := hw }) = .ok st') :
    ∃ t ts r, st.timers.timers = t :: ts ∧ ts.length = hw.length ∧ Answers st (ev, t) r ∧
      st'.codecResults = st.codecResults ++ [r] ∧ st'.timers.timers = ts ∧
      ∀ slot, (st'.metas slot).info = (st.metas slot).info := by
  rcases callback_cases h with ⟨hinvalid, -⟩ | ⟨hvalid, pool, r, rfl, hresult⟩
  · have hle := hring.head_invalid hhw hinvalid
    simp only [lateNum, hhw, length_cons] at hlate
    omega
  · obtain ⟨t, ts, hts, hlen, hslot⟩ := hring.head_valid hhw hvalid
    have hle := hring.hw_le_inQatNum
    rw [hhw, length_cons] at hle
    have hcomplete := complete_advances FrameMeta.userCtx False pool
      (b := codecBooks st st.timers.timers [] []) hring hts hts hhw hlen
      (Nat.le_of_succ_le hle) (Nat.le_refl _) cfg.dev r.status False.elim
    rw [hslot] at hcomplete
    refine ⟨t, ts, r, hts, hlen, ?_, rfl, hcomplete.2, fun slot => ?_⟩
    · unfold Answers
      rw [hslot]
      exact hresult
    · exact calledBack_info _ _ _ _ c slot

lemma pollInstance_answers {evs : List Completion}
    (hring : Standing cfg.size st.toInFlight) (h : pollInstance cfg evs st = .ok st') :
    ∃ answers, Answered evs st st' answers := by
  induction evs generalizing st with
  | nil =>
    cases h
    exact ⟨[], answered_nil hring [] (Or.inl rfl)⟩
  | cons ev evs ih =>
    unfold pollInstance at h
    split at h
    · rename_i hhw
      cases h
      exact ⟨[], answered_nil hring _ (Or.inr hhw)⟩
    rename_i c hw hhw
    split at h
    · cases h
    rename_i st₁ hcallback
    have hadv : EngineAdvances cfg False st [] [] st₁ [] [] :=
      callback_advances hring hhw hcallback False.elim
    obtain ⟨answers, hrest⟩ := ih hadv.ring h
    have hhw₁ : st₁.hw = hw := (callback_frame hcallback).hw
    have hts := hring.ts_le
    have hhwlen : st'.hw.length = st.hw.length - (ev :: evs).length := by
      rw [hrest.hw, hhw₁, hhw, length_cons, length_cons]
      omega
    rcases Nat.eq_zero_or_pos (lateNum st) with hzero | hpos
    · -- the completion of the oldest request in flight
      obtain ⟨t, ts, r, htimers, hlen, hr, hresults, htimers₁, hinfo⟩ :=
        callback_answers hring hhw hzero hcallback
      have hzero₁ : lateNum st₁ = 0 := by
        simp only [lateNum, hhw₁, htimers₁]
        omega
      refine ⟨r :: answers, ?_, ?_, ?_, hhwlen, fun slot => (hrest.info slot).trans (hinfo slot)⟩
      · rw [hrest.codecResults, hresults, append_assoc]
        rfl
      · rw [hzero, htimers, drop_zero, zip_cons_cons]
        refine Forall₂.cons hr ?_
        have hrest' := hrest.answers
        rw [hzero₁, htimers₁, drop_zero] at hrest'
        refine hrest'.imp fun answered r' hr' => ?_
        unfold Answers at hr' ⊢
        rwa [← hinfo]
      · rw [hrest.timers, hzero₁, hzero, htimers₁, htimers]
        rfl
    · -- the completion of a request that timed out
      obtain ⟨hresults, htimers₁, hinfo⟩ := callback_late hring hhw hpos hcallback
      have hlate : lateNum st = lateNum st₁ + 1 := by
        simp only [lateNum, hhw, hhw₁, htimers₁, length_cons] at hpos ⊢
        omega
      refine ⟨answers, ?_, ?_, ?_, hhwlen, fun slot => (hrest.info slot).trans (hinfo slot)⟩
      · rw [hrest.codecResults, hresults]
      · have hrest' := hrest.answers
        rw [htimers₁] at hrest'
        rw [hlate, drop_succ_cons]
        refine hrest'.imp fun answered r' hr' => ?_
        unfold Answers at hr' ⊢
        rwa [← hinfo]
      · rw [hrest.timers, htimers₁, hlate, length_cons, Nat.add_sub_add_right]

lemma foldl_pushes {f : Nat → EngineState → EngineState} {code : StatusCode}
    (hf : ∀ slot st, ∃ ctx, (f slot st).codecResults = st.codecResults ++ [failedResult ctx code])
    (ts : List (TimeoutContext Nat)) (st : EngineState) :
    ∃ rs, (ts.foldl (fun st t => f t.timerArg st) st).codecResults = st.codecResults ++ rs ∧
      rs.length = ts.length ∧ ∀ r ∈ rs, r.status = code := by
  induction ts generalizing st with
  | nil => exact ⟨[], by simp, rfl, by simp⟩
  | cons t ts ih =>
    obtain ⟨ctx, hfirst⟩ := hf t.timerArg st
    obtain ⟨rs, hrest, hlen, hall⟩ := ih (f t.timerArg st)
    refine ⟨failedResult ctx code :: rs, ?_, by simp [hlen], ?_⟩
    · rw [foldl_cons, hrest, hfirst, append_assoc]
      rfl
    · exact forall_mem_cons.mpr ⟨rfl, hall⟩

/-- The requests that neither complete nor expire in a poll of the hardware. -/
def leftInFlight (env : PollEnv) (st : EngineState) : List (TimeoutContext Nat) :=
  (st.timers.timers.drop (env.completions.length - lateNum st)).dropWhile fun t => decide (t.onfiredTs ≤ env.now)

/-- What a poll of the hardware makes of an engine: the answers of the completions, and
those of the timers. -/
structure HardwarePolled (env : PollEnv) (st st' : EngineState) (answers timeouts : List CodecResult) :
    Prop where
  codecResults : st'.codecResults = st.codecResults ++ (answers ++ timeouts)
  answered : List.Forall₂ (Answers st) ((env.completions.drop (lateNum st)).zip st.timers.timers) answers
  expired : timeouts.length =
    ((st.timers.timers.drop (env.completions.length - lateNum st)).takeWhile
      fun t => decide (t.onfiredTs ≤ env.now)).length
  timedOut : ∀ r ∈ timeouts, r.status = .kTimeout
  timers : st'.timers.timers = leftInFlight env st
  hw : st'.hw.length = st.hw.length - env.completions.length
  info : ∀ slot, (st'.metas slot).info = (st.metas slot).info

lemma HardwarePolled.silent {env : PollEnv} {answers timeouts : List CodecResult}
    (h : HardwarePolled env st st' answers timeouts) (hnil : st'.codecResults = []) :
    st.codecResults = [] ∧ leftInFlight env st = st.timers.timers := by
  rw [h.codecResults, append_eq_nil_iff, append_eq_nil_iff] at hnil
  obtain ⟨hresults, rfl, rfl⟩ := hnil
  have hdrop : st.timers.timers.drop (env.completions.length - lateNum st) = st.timers.timers := by
    rcases zip_eq_nil_iff.mp (forall₂_nil_right_iff.mp h.answered) with hnone | hnone
    · rw [Nat.sub_eq_zero_of_le (drop_eq_nil_iff.mp hnone), drop_zero]
    · rw [hnone, drop_nil]
  have hexpired := h.expired
  rw [hdrop, eq_comm, length_nil, length_eq_zero_iff] at hexpired
  refine ⟨hresults, ?_⟩
  rw [leftInFlight, hdrop]
  exact (congrArg (· ++ _) hexpired).symm.trans takeWhile_append_dropWhile

lemma pollHardware_answers {env : PollEnv} (hring : Standing cfg.size st.toInFlight)
    (h : pollHardware cfg env st = .ok st') :
    ∃ answers timeouts, HardwarePolled env st st' answers timeouts := by
  unfold pollHardware at h
  split at h
  · cases h
  rename_i st₁ hpoll
  cases h
  obtain ⟨answers, hanswered⟩ : ∃ answers,
      Answered env.completions { st with callbackCalledTimes := 0 } st₁ answers :=
    pollInstance_answers hring hpoll
  obtain ⟨timeouts, hpushed, hlen, htimeouts⟩ := foldl_pushes (f := onTimeout cfg env.clock)
    (fun slot st => ⟨(st.metas slot).info.userCtx, rfl⟩) (st₁.timers.due env.now)
    (st₁.onInFlight fun s => { s with timers := s.timers.handleTimeout env.now })
  have hlate : lateNum { st with callbackCalledTimes := 0 } = lateNum st := rfl
  have htimers₁ := hanswered.timers
  rw [hlate] at htimers₁
  refine ⟨answers, timeouts, ?_, hanswered.answers, ?_, htimeouts, ?_, ?_, fun slot => ?_⟩
  · have hfirst : st₁.codecResults = st.codecResults ++ answers := hanswered.codecResults
    rw [← append_assoc, ← hfirst]
    exact hpushed
  · rw [hlen, TimerManager.due, htimers₁]
  · have htimers := handleFreeTimeout_proj (·.timers) env.freeNow (fun _ _ _ => rfl)
      (handleTimeout cfg env.now env.clock st₁).toInFlight
    refine (congrArg TimerManager.timers htimers).trans ?_
    rw [handleTimeout_timers, TimerManager.handleTimeout, htimers₁, leftInFlight]
  · have hhw := (handleFreeTimeout_proj (·.hw) env.freeNow (fun _ _ _ => rfl)
      (handleTimeout cfg env.now env.clock st₁).toInFlight).trans
        (handleTimeout_proj (·.hw) env.now env.clock (fun _ _ => rfl) st₁)
    exact (congrArg List.length hhw).trans hanswered.hw
  · have hfree := handleFreeTimeout_proj (·.metas) env.freeNow (fun _ _ _ => rfl)
      (handleTimeout cfg env.now env.clock st₁).toInFlight
    have hinfo := handleTimeout_proj (fun st => (st.metas slot).info) env.now env.clock
      (fun slot' st => (sameRequest_intercept cfg.size (replacementCb cfg) slot' slot st.toInFlight).info) st₁
    exact ((congrArg (fun metas => (metas slot).info) hfree).trans hinfo).trans (hanswered.info slot)

end Vesal.Proofs
