import Vesal.Proofs.CodecAnswers

/-! # A codec engine that dies -/

namespace Vesal.Proofs

open EngineState List Bool Library

variable {cfg : EngineConfig}

def DiesIdle (st : EngineState) : Prop := st.isFatal = true → st.timers.timers = []

variable {st : EngineState} {run : CodecRun}

lemma handleHa_diesIdle (env : HaEnv) (i : Nat) (error : StatusCode) (h : DiesIdle st) :
    DiesIdle (handleHa cfg env i error st).2 := by
  rcases handleHa_cases cfg env i error st with ⟨-, errorTs, heq⟩ | ⟨-, errorTs, heq⟩
  · rw [heq]
    exact h
  · rw [heq]
    exact fun _ => retired_timers _

lemma cleanUpReqData_timers_nil {π κ : Type} [CallbackContext κ] (dev : DmaUnit) (slot : Nat)
    (c : Option Nat) {s : InFlight π κ} (h : s.timers.timers = []) :
    (s.cleanUpReqData dev (some slot) c).timers.timers = [] := by
  have hdrop : (s.dropMeta slot).timers.timers = [] := by
    unfold InFlight.dropMeta
    split
    · simp [TimerManager.removeTimer, h]
    · exact h
  cases c with
  | none => exact hdrop
  | some c => exact (resetCb_proj (·.timers.timers) (fun _ _ _ _ => rfl) dev c _).trans hdrop

lemma cleanUpReqData_diesIdle (dev : DmaUnit) (slot : Nat) (c : Option Nat) (h : DiesIdle st) :
    DiesIdle (st.onInFlight (·.cleanUpReqData dev (some slot) c)) :=
  fun hfatal => cleanUpReqData_timers_nil dev slot c (h hfatal)

lemma diesIdle_of_alive (hfatal : st.isFatal = false) : DiesIdle st := by
  intro habs
  rw [hfatal] at habs
  cases habs

def SubmitLossless (cfg : EngineConfig) (env : SubmitEnv) (args : CodecRequestArgs) (st : EngineState) : Prop :=
  Admitted cfg args st → isHaEnabled cfg.opts.haPolicy = false →
    (env.driver = .kChannelError ∨ env.driver = .kHardwareError) → st.timers.timers = []

variable {st' : EngineState}

lemma submitAsyncRequest_diesIdle {env : SubmitEnv} {args : CodecRequestArgs} {status : StatusCode}
    (h : DiesIdle st) (hlossless : SubmitLossless cfg env args st)
    (hsubmit : submitAsyncRequest cfg env args st = .ok (status, st')) : DiesIdle st' := by
  rcases submitAsyncRequest_cases hsubmit with ⟨-, rfl⟩ | ⟨hopt, hfatal, hfull, ok, st₁, hprepare, hcase⟩
  · exact h
  · have hprep := prepareCommonReqData_prepared hprepare
    have hfatal₁ : st₁.isFatal = false := hprep.isFatal.trans hfatal
    rcases hcase with ⟨-, -, rfl⟩ | ⟨-, -, -, rfl⟩ | ⟨rfl, -, -, rfl⟩
    · exact cleanUpReqData_diesIdle _ _ _ (diesIdle_of_alive hfatal₁)
    · exact diesIdle_of_alive hfatal₁
    · refine cleanUpReqData_diesIdle _ _ _ ?_
      unfold handleSubmitError
      split
      · exact handleHa_diesIdle env.ha 0 env.driver (diesIdle_of_alive hfatal₁)
      · rename_i hha
        rw [not_eq_true] at hha
        split
        · rename_i hdriver
          intro _
          exact (congrArg TimerManager.timers hprep.timers).trans
            (hlossless (admitted_of_prepared hopt hfatal hfull hprepare) hha hdriver)
        · exact diesIdle_of_alive hfatal₁

/-- A poll that is bad and gives no result leaves no request in flight. -/
def PollLossless (cfg : EngineConfig) (env : PollEnv) (maxNum : Nat) (st : EngineState) : Prop :=
  st.isFatal = false → isHaEnabled cfg.opts.haPolicy = false →
    isBadPoll (cpaStatusToVesalStatusCode env.status) = true →
    maxNum = 0 ∨ st.codecResults = [] ∧ leftInFlight env st = st.timers.timers →
    leftInFlight env st = []

variable {env : PollEnv} {maxNum : Nat} {results : List CodecResult} {ev : CodecEvent}

lemma poll_diesIdle {n : Int} (hring : Standing cfg.size st.toInFlight) (h : DiesIdle st)
    (hlossless : PollLossless cfg env maxNum st) (hpoll : poll cfg env maxNum st = .ok (n, results, st')) :
    DiesIdle st' := by
  unfold poll at hpoll
  split at hpoll
  · cases hpoll
    exact h
  rename_i hfatal
  rw [not_eq_true] at hfatal
  split at hpoll
  · cases hpoll
  rename_i st₁ hhardware
  obtain ⟨-, hfatal₁, -⟩ : CodecAdvances cfg False st st.timers.timers [] [] st₁ _ [] [] ∧ _ :=
    pollHardware_advances hring hhardware fun hfalse => hfalse.elim
  rw [hfatal] at hfatal₁
  dsimp only at hpoll
  split at hpoll
  · rename_i hha
    rw [not_eq_true'] at hha
    split at hpoll
    · rename_i hdead
      cases hpoll
      obtain ⟨answers, timeouts, hpolled⟩ := pollHardware_answers hring hhardware
      have hnil := take_eq_nil_iff.mp (length_eq_zero_iff.mp hdead.1)
      exact fun _ => hpolled.timers.trans (hlossless hfatal hha hdead.2 (hnil.imp_right hpolled.silent))
    · cases hpoll
      exact diesIdle_of_alive hfatal₁
  · cases hpoll
    exact pollHa_keeps (fun i error _ => handleHa_diesIdle env.ha i error) _ (diesIdle_of_alive hfatal₁)

/-- Every accepted request that is not returned is in the list of results of a dead engine.
However much room the coming calls of `Poll` have, as long as they have some, they return
all of them, and before that none answers `-1`. -/
def NothingLost (cfg : EngineConfig) (run : CodecRun) : Prop :=
  run.engine.isFatal = true →
    (run.returned ++ run.engine.codecResults).map CodecResult.ctx =
      run.accepted.map CodecRequestArgs.ctx ∧
    ∀ polls : List (PollEnv × Nat), (∀ p ∈ polls, 0 < p.2) →
      ∃ run', runCodec cfg run (polls.map fun p => .poll p.1 p.2) = .ok run' ∧
        (run.engine.codecResults.length ≤ polls.length →
          run'.returned.map CodecResult.ctx = run.accepted.map CodecRequestArgs.ctx) ∧
        ∀ env maxNum results st, 0 < maxNum → poll cfg env maxNum run'.engine = .ok (-1, results, st) →
          run'.returned.map CodecResult.ctx = run.accepted.map CodecRequestArgs.ctx

lemma poll_of_fatal (hfatal : st.isFatal = true) (env : PollEnv) (maxNum : Nat) :
    poll cfg env maxNum st =
      .ok (if (st.codecResults.take maxNum).length > 0 then ((st.codecResults.take maxNum).length : Int) else -1,
        st.codecResults.take maxNum, { st with codecResults := st.codecResults.drop maxNum }) := by
  unfold poll
  rw [if_pos hfatal]
  rfl

lemma poll_fatal_failed (hfatal : st.isFatal = true) (hmax : 0 < maxNum)
    (h : poll cfg env maxNum st = .ok (-1, results, st')) :
    st.codecResults = [] := by
  rw [poll_of_fatal hfatal, Except.ok.injEq, Prod.mk.injEq] at h
  have hnum := h.1
  split at hnum
  · omega
  · rename_i hnone
    rw [length_take] at hnone
    exact length_eq_zero_iff.mp (by omega)

lemma runCodec_polls_of_fatal (polls : List (PollEnv × Nat)) (hfatal : run.engine.isFatal = true)
    (hopen : run.engine.closed = false) (hroom : ∀ p ∈ polls, 0 < p.2) :
    ∃ run', runCodec cfg run (polls.map fun p => .poll p.1 p.2) = .ok run' ∧
      run'.engine.isFatal = true ∧
      run'.returned ++ run'.engine.codecResults = run.returned ++ run.engine.codecResults ∧
      run'.engine.codecResults.length ≤ run.engine.codecResults.length - polls.length := by
  induction polls generalizing run with
  | nil => exact ⟨run, rfl, hfatal, rfl, Nat.le_refl _⟩
  | cons p polls ih =>
    let run₁ : CodecRun :=
      { run with
        engine := { run.engine with codecResults := run.engine.codecResults.drop p.2 }
        returned := run.returned ++ run.engine.codecResults.take p.2 }
    have hstep : codecStep cfg run (.poll p.1 p.2) = .ok run₁ := by
      simp only [codecStep, hopen, false_eq_true, if_false, poll_of_fatal hfatal, run₁]
    have hfatal₁ : run₁.engine.isFatal = true := hfatal
    obtain ⟨run', hrun, hfatal', hall, hlen⟩ :=
      ih hfatal₁ hopen fun q hq => hroom q (mem_cons_of_mem _ hq)
    refine ⟨run', ?_, hfatal', ?_, ?_⟩
    · exact (runEvents_cons hstep _).trans hrun
    · rw [hall]
      simp only [run₁, append_assoc, take_append_drop]
    · have hp := hroom p mem_cons_self
      have hlen₁ : run₁.engine.codecResults.length = run.engine.codecResults.length - p.2 := by
        simp [run₁]
      rw [length_cons]
      omega

lemma Kept.nothingLost (h : Kept cfg run) (hidle : DiesIdle run.engine) :
    NothingLost cfg run := by
  intro hfatal
  have hall : (run.returned ++ run.engine.codecResults).map CodecResult.ctx =
      run.accepted.map CodecRequestArgs.ctx := by
    obtain ⟨old, live, hacc, hctx, hstored⟩ := h.ledger
    have hnil : live = [] := by
      have hlen := hstored.length_eq
      simp only [codecBooks, hidle hfatal, length_nil] at hlen
      exact length_eq_zero_iff.mp hlen.symm
    have hacc' : run.accepted = old := by simpa [codecBooks, hnil] using hacc
    rw [hacc']
    exact (outcomes_snd _).symm.trans hctx.symm
  refine ⟨hall, fun polls hroom => ?_⟩
  obtain ⟨run', hrun, hfatal', hsame, hlen⟩ := runCodec_polls_of_fatal polls hfatal h.opened hroom
  have hdone : run'.engine.codecResults = [] →
      run'.returned.map CodecResult.ctx = run.accepted.map CodecRequestArgs.ctx := by
    intro hempty
    rw [hempty, append_nil] at hsame
    rw [hsame, hall]
  refine ⟨run', hrun, fun hmany => hdone (length_eq_zero_iff.mp (by omega)), ?_⟩
  intro env maxNum results st hmax hpoll
  exact hdone (poll_fatal_failed hfatal' hmax hpoll)

/-- What the events of a run must find for no request to be lost: where the engine dies
without a fallback, no request is in flight. The run ends with a `Close` that returns OK. -/
def EventLossless (cfg : EngineConfig) (run : CodecRun) : CodecEvent → Prop
  | .submit env args => SubmitLossless cfg env args run.engine
  | .poll env maxNum => PollLossless cfg env maxNum run.engine
  | .close env => ∀ st', EngineState.close cfg env run.engine ≠ .ok (.kOk, st')
  | .memory _ => True

lemma EventLossless.keepsOpen (h : EventLossless cfg run ev) :
    KeepsOpen cfg run ev := by
  cases ev with
  | close env => exact h
  | submit env args => trivial
  | poll env maxNum => trivial
  | memory pool => trivial

lemma codecStep_diesIdle {run' : CodecRun} (hkept : Kept cfg run) (h : DiesIdle run.engine)
    (hlossless : EventLossless cfg run ev) (hstep : codecStep cfg run ev = .ok run') : DiesIdle run'.engine := by
  rcases codecStep_cases hstep with ⟨env, args, status, st, rfl, -, hsubmit, rfl⟩ |
    ⟨env, maxNum, n, results, st, rfl, -, hpoll, rfl⟩ | ⟨env, status, st, rfl, hclose, rfl⟩ |
    ⟨pool, rfl, rfl⟩
  · exact submitAsyncRequest_diesIdle h hlossless hsubmit
  · exact poll_diesIdle hkept.ring h hlossless hpoll
  · obtain ⟨hadv, hfatal, -⟩ : EngineAdvances cfg False run.engine run.accepted run.returned st run.accepted
      run.returned ∧ _ :=
      closePolls_advances hkept.ring (KeepsOpen.polls hlossless hclose) fun hfalse => hfalse.elim
    intro hdead
    exact hkept.ledger.timers_nil hadv.steps rfl (h (hfatal.symm.trans hdead))
  · exact h

/-- In every run in which the engine dies without a fallback only while no request is in
flight, no request is lost. -/
theorem codec_loses_nothing (cfg : EngineConfig) (pool : PoolState) (run : CodecRun)
    (h : CodecRuns cfg (EventLossless cfg) (initCodecRun cfg pool) run) : NothingLost cfg run := by
  have hboth : Kept cfg run ∧ DiesIdle run.engine := by
    refine h.invariant (P := fun run => Kept cfg run ∧ DiesIdle run.engine)
      ⟨kept_init cfg pool, diesIdle_of_alive rfl⟩ fun run ev run' hinv hev hstep => ?_
    exact ⟨hinv.1.step hev.keepsOpen hstep, codecStep_diesIdle hinv.1 hinv.2 hev hstep⟩
  exact hboth.1.nothingLost hboth.2

/-- The fallback finds no other unit: the request in flight is returned as dropped. -/
theorem codec_loses_nothing_in_fallback :
    ∃ run, CodecRuns (sampleConfig .kHardware) (EventLossless (sampleConfig .kHardware))
        (initCodecRun (sampleConfig .kHardware) samplePool) run ∧
      run.engine.isFatal = true ∧ run.accepted.map CodecRequestArgs.ctx = [7] ∧
      NothingLost (sampleConfig .kHardware) run := by
  have hallowed : ∀ run ev, notClose ev = true → EventLossless (sampleConfig .kHardware) run ev := by
    intro run ev hev
    cases ev with
    | submit env args =>
      intro _ hha
      cases hha
    | poll env maxNum =>
      intro _ hha
      cases hha
    | close env => cases hev
    | memory pool => trivial
  obtain ⟨run, hruns, -, hgoal⟩ := exists_runs_of_reaches (codecStep (sampleConfig .kHardware))
    (initCodecRun (sampleConfig .kHardware) samplePool) [submitAt 0 .kOk 7, pollAt 1 [] .fail false]
    (fun _ => notClose) (fun run => run.engine.isFatal && run.accepted.map CodecRequestArgs.ctx == [7])
    hallowed (by decide)
  simp only [and_eq_true, beq_iff_eq] at hgoal
  exact ⟨run, hruns, hgoal.1, hgoal.2, codec_loses_nothing _ _ run hruns⟩

/-- Without the fallback the engine dies in a `Poll` that fails, and the request in flight is
neither returned nor in the list of results. -/
theorem codec_loses_request_in_flight :
    ∃ run, runCodec (sampleConfig .kNone) (initCodecRun (sampleConfig .kNone) samplePool)
        [submitAt 0 .kOk 7, pollAt 1 [] .fail true] = .ok run ∧
      run.engine.isFatal = true ∧ run.accepted = [sampleArgs 7] ∧ run.returned = [] ∧
      run.engine.codecResults = [] ∧ ¬ NothingLost (sampleConfig .kNone) run := by
  obtain ⟨run, -, hrun, hgoal⟩ := exists_runs_of_reaches (codecStep (sampleConfig .kNone))
    (initCodecRun (sampleConfig .kNone) samplePool) [submitAt 0 .kOk 7, pollAt 1 [] .fail true]
    (fun _ _ => true)
    (fun run => run.engine.isFatal && run.accepted == [sampleArgs 7] && run.returned == [] &&
      run.engine.codecResults == [])
    (fun _ _ h => h) (by decide)
  simp only [and_eq_true, beq_iff_eq] at hgoal
  obtain ⟨⟨⟨hfatal, haccepted⟩, hreturned⟩, hresults⟩ := hgoal
  refine ⟨run, hrun, hfatal, haccepted, hreturned, hresults, fun hlost => ?_⟩
  have hall := (hlost hfatal).1
  rw [hreturned, hresults, haccepted] at hall
  simp at hall

end Vesal.Proofs
