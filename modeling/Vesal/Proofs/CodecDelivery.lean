import Vesal.Proofs.CodecBooks

/-! # Delivery of the codec engine -/

namespace Vesal.Proofs

open EngineState Bool

variable {cfg : EngineConfig} {guarded : Prop}

def EventGuard (cfg : EngineConfig) (run : CodecRun) : CodecEvent → Prop
  | .submit env args => SubmitGuard cfg env args run.engine
  | .poll env maxNum => PollGuard cfg env maxNum run.engine
  | .close env => NoWatchdogPolls cfg env.polls run.engine
  | .memory _ => True

def KeepsOpen (cfg : EngineConfig) (run : CodecRun) : CodecEvent → Prop
  | .close env => ∀ st', EngineState.close cfg env run.engine ≠ .ok (.kOk, st')
  | _ => True

variable {run run' : CodecRun} {ev : CodecEvent}

lemma keepsOpen_of_not_close (h : ∀ env, ev ≠ .close env) :
    KeepsOpen cfg run ev := by
  cases ev with
  | close env => exact absurd rfl (h env)
  | submit env args => trivial
  | poll env maxNum => trivial
  | memory pool => trivial

variable {env : CloseEnv} {status : StatusCode} {st : EngineState} {allowed : CodecRun → CodecEvent → Prop}
  {pool : PoolState}

lemma close_cases {st' : EngineState} (hopen : st.closed = false)
    (h : EngineState.close cfg env st = .ok (status, st')) :
    ∃ st₁, env.polls.foldlM (fun st evs => pollInstance cfg evs st) st = .ok st₁ ∧
      ((env.result ≠ .kOk ∧ status ≠ .kOk ∧ st' = st₁) ∨
      (env.result = .kOk ∧ status = .kOk ∧ st'.closed = true ∧ st'.deleted = st₁.deleted)) := by
  unfold EngineState.close at h
  rw [hopen, if_neg Bool.false_ne_true] at h
  split at h
  · cases h
  rename_i st₁ hpolls
  split at h
  · rename_i hresult
    cases h
    exact ⟨_, hpolls, Or.inl ⟨hresult, hresult, rfl⟩⟩
  · rename_i hresult
    cases h
    exact ⟨st₁, hpolls, Or.inr ⟨not_not.mp hresult, rfl, rfl,
      foldl_resetCb_proj (·.deleted) (fun _ _ _ _ => rfl) cfg.dev _ _⟩⟩

lemma KeepsOpen.polls (hopen : KeepsOpen cfg run (.close env))
    (h : EngineState.close cfg env run.engine = .ok (status, st)) :
    env.polls.foldlM (fun st evs => pollInstance cfg evs st) run.engine = .ok st := by
  have hclosed : run.engine.closed = false := by
    rw [← not_eq_true]
    intro hclosed
    refine hopen run.engine ?_
    unfold EngineState.close
    rw [if_pos hclosed]
  obtain ⟨st₁, hpolls, ⟨-, -, rfl⟩ | ⟨-, hok, -⟩⟩ := close_cases hclosed h
  · exact hpolls
  · rw [hok] at h
    exact absurd h (hopen st)

lemma codecStep_cases (h : codecStep cfg run ev = .ok run') :
    (∃ env args status st, ev = .submit env args ∧ run.engine.closed = false ∧
      submitAsyncRequest cfg env args run.engine = .ok (status, st) ∧
      run' = ⟨st, if status = .kOk then run.accepted ++ [args] else run.accepted, run.returned⟩) ∨
    (∃ env maxNum n results st, ev = .poll env maxNum ∧ run.engine.closed = false ∧
      EngineState.poll cfg env maxNum run.engine = .ok (n, results, st) ∧
      run' = ⟨st, run.accepted, run.returned ++ results⟩) ∨
    (∃ env status st, ev = .close env ∧ EngineState.close cfg env run.engine = .ok (status, st) ∧
      run' = ⟨st, run.accepted, run.returned⟩) ∨
    (∃ pool, ev = .memory pool ∧
      run' = ⟨run.engine.onInFlight fun s => { s with pool := pool }, run.accepted, run.returned⟩) := by
  unfold codecStep at h
  split at h
  · rename_i env args
    split at h
    · cases h
    rename_i hclosed
    split at h
    · cases h
    · rename_i status st hsubmit
      cases h
      exact Or.inl ⟨env, args, status, st, rfl, by simpa using hclosed, hsubmit, rfl⟩
  · rename_i env maxNum
    split at h
    · cases h
    rename_i hclosed
    split at h
    · cases h
    · rename_i n results st hpoll
      cases h
      exact Or.inr (Or.inl ⟨env, maxNum, n, results, st, rfl, by simpa using hclosed, hpoll, rfl⟩)
  · rename_i env
    split at h
    · cases h
    · rename_i status st hclose
      cases h
      exact Or.inr (Or.inr (Or.inl ⟨env, status, st, rfl, hclose, rfl⟩))
  · rename_i pool
    cases h
    exact Or.inr (Or.inr (Or.inr ⟨pool, rfl, rfl⟩))

def RunAdvances (cfg : EngineConfig) (guarded : Prop) (run run' : CodecRun) : Prop :=
  EngineAdvances cfg guarded run.engine run.accepted run.returned run'.engine run'.accepted run'.returned

section

variable (hring : Standing cfg.size run.engine.toInFlight)
include hring

lemma codecStep_advances (h : codecStep cfg run ev = .ok run') (hopen : KeepsOpen cfg run ev)
    (hguard : guarded → EventGuard cfg run ev) :
    RunAdvances cfg guarded run run' := by
  rcases codecStep_cases h with ⟨env, args, status, st, rfl, -, hsubmit, rfl⟩ |
    ⟨env, maxNum, n, results, st, rfl, -, hpoll, rfl⟩ | ⟨env, status, st, rfl, hclose, rfl⟩ |
    ⟨pool, rfl, rfl⟩
  · exact submitAsyncRequest_advances hring hsubmit hguard
  · exact poll_advances hring hpoll hguard
  · exact (closePolls_advances hring (hopen.polls hclose) hguard).1
  · exact Advances.keep (hring.congr rfl rfl rfl rfl rfl rfl rfl) (fun _ => SameRequest.refl _) rfl rfl

lemma codecStep_closed (h : codecStep cfg run ev = .ok run') (hopen : KeepsOpen cfg run ev) :
    run'.engine.closed = run.engine.closed := by
  rcases codecStep_cases h with ⟨env, args, status, st, rfl, -, hsubmit, rfl⟩ |
    ⟨env, maxNum, n, results, st, rfl, -, hpoll, rfl⟩ | ⟨env, status, st, rfl, hclose, rfl⟩ |
    ⟨pool, rfl, rfl⟩
  · exact submitAsyncRequest_closed hsubmit
  · exact poll_closed hring hpoll
  · obtain ⟨-, -, hclosed, -⟩ : EngineAdvances cfg False run.engine [] [] st [] [] ∧ _ :=
      closePolls_advances hring (hopen.polls hclose) fun hfalse => hfalse.elim
    exact hclosed
  · rfl

end

structure Kept (cfg : EngineConfig) (run : CodecRun) : Prop where
  ring : Standing cfg.size run.engine.toInFlight
  ledger : Ledger FrameMeta.userCtx
    (codecBooks run.engine run.engine.timers.timers run.accepted run.returned)
  opened : run.engine.closed = false

lemma kept_init (cfg : EngineConfig) (pool : PoolState) : Kept cfg (initCodecRun cfg pool) where
  ring := ring_init _ _ _ _ _ _
  ledger := ⟨[], [], rfl, rfl, List.Forall₂.nil⟩
  opened := rfl

lemma Kept.step (h : Kept cfg run) (hopen : KeepsOpen cfg run ev) (hstep : codecStep cfg run ev = .ok run') :
    Kept cfg run' := by
  have hadv : RunAdvances cfg False run run' :=
    codecStep_advances h.ring hstep hopen fun hfalse => hfalse.elim
  exact ⟨hadv.ring, h.ledger.steps hadv.steps, (codecStep_closed h.ring hstep hopen).trans h.opened⟩

lemma kept_of_runs (hallowed : ∀ run ev, allowed run ev → KeepsOpen cfg run ev)
    (h : CodecRuns cfg allowed (initCodecRun cfg pool) run) : Kept cfg run :=
  h.invariant (kept_init cfg pool) fun _ ev _ hkept hev hstep => hkept.step (hallowed _ ev hev) hstep

lemma kept_of_open (h : CodecRuns cfg allowed (initCodecRun cfg pool) run) (hopen : run.engine.closed = false) :
    Kept cfg run := by
  refine h.invariant (P := fun run => run.engine.closed = false → Kept cfg run)
    (fun _ => kept_init cfg pool) (fun run ev run' hkept _ hstep hopen' => ?_) hopen
  rcases codecStep_cases hstep with ⟨env, args, status, st, rfl, hclosed, -, -⟩ |
    ⟨env, maxNum, n, results, st, rfl, hclosed, -, -⟩ | ⟨env, status, st, rfl, hclose, rfl⟩ |
    ⟨pool, rfl, rfl⟩
  · have hkeeps : KeepsOpen cfg run (.submit env args) := trivial
    exact (hkept hclosed).step hkeeps hstep
  · have hkeeps : KeepsOpen cfg run (.poll env maxNum) := trivial
    exact (hkept hclosed).step hkeeps hstep
  · have hclosed : run.engine.closed = false := by
      rw [← not_eq_true]
      intro hclosed
      unfold EngineState.close at hclose
      rw [if_pos hclosed] at hclose
      cases hclose
      exact absurd hclosed (by simpa using hopen')
    have hkeeps : KeepsOpen cfg run (.close env) := by
      intro st' heq
      obtain ⟨st₁, -, ⟨-, hstatus, -⟩ | ⟨-, -, hshut, -⟩⟩ := close_cases hclosed hclose
      · rw [hclose] at heq
        cases heq
        exact hstatus rfl
      · exact false_ne_true (hopen'.symm.trans hshut)
    exact (hkept hclosed).step hkeeps hstep
  · have hkeeps : KeepsOpen cfg run (.memory pool) := trivial
    exact (hkept hopen').step hkeeps hstep

def sampleConfig (haPolicy : HaPolicy) : EngineConfig where
  opts := ⟨haPolicy, .kNone, false, 100⟩
  size := ⟨1, by decide, by decide⟩
  dev := ⟨true, fun _ _ => 1⟩
  ha := ⟨50, 60000000, id⟩
  msToDuration := id

def samplePool : PoolState := ⟨fun _ => 0, [], []⟩

def sampleArgs (ctx : Nat) : CodecRequestArgs :=
  ⟨[⟨8, 4096, ctx, some 1, by decide⟩], ⟨64, 8192, ctx, none, by decide⟩, ctx, .kDeflate, .kLevel1, .kComp⟩

def sampleHaEnv (reinit : Bool) : HaEnv := ⟨fun _ => 0, 5, reinit⟩

def submitAt (now : Nat) (driver : StatusCode) (ctx : Nat) : CodecEvent :=
  .submit ⟨driver, now, sampleHaEnv true⟩ (sampleArgs ctx)

def sampleCompletion : Completion := ⟨.success, ⟨.ok, 4, 8, 0, 0, 0⟩, fun _ => 0, ⟨[], []⟩⟩

def pollAt (now : Nat) (completions : List Completion) (status : CpaStatus) (reinit : Bool) : CodecEvent :=
  .poll ⟨completions, status, now, fun _ => now, now, sampleHaEnv reinit⟩ 8

def notClose : CodecEvent → Bool
  | .close _ => false
  | _ => true

lemma ne_close_of_notClose (h : notClose ev = true) (env : CloseEnv) : ev ≠ .close env := by
  intro heq
  rw [heq] at h
  cases h

/-- In every run without `Close`, the contexts that `Poll` has returned are the first ones of
those that `SubmitAsyncRequest` has accepted. -/
theorem codec_returns_in_order (cfg : EngineConfig) (pool : PoolState) (run : CodecRun)
    (h : CodecRuns cfg (fun _ ev => ∀ env, ev ≠ .close env) (initCodecRun cfg pool) run) :
    run.returned.map CodecResult.ctx <+: run.accepted.map CodecRequestArgs.ctx := by
  have hprefix := (kept_of_runs (fun _ _ => keepsOpen_of_not_close) h).ledger.prefix_ctx
  have hdone : (outcomes (run.returned ++ run.engine.codecResults)).map Prod.snd =
      run.returned.map CodecResult.ctx ++ run.engine.codecResults.map CodecResult.ctx := by
    rw [outcomes_snd, List.map_append]
  exact (List.prefix_append _ _).trans (hdone ▸ hprefix)

/-- One request is returned, the next one is in the hardware. -/
theorem codec_returns_first_of_two :
    ∃ run, CodecRuns (sampleConfig .kNone) (fun _ ev => ∀ env, ev ≠ .close env)
        (initCodecRun (sampleConfig .kNone) samplePool) run ∧
      run.accepted.map CodecRequestArgs.ctx = [7, 9] ∧ run.returned.map CodecResult.ctx = [7] ∧
      run.returned.map CodecResult.ctx <+: run.accepted.map CodecRequestArgs.ctx := by
  obtain ⟨run, hruns, -, hgoal⟩ := Library.exists_runs_of_reaches (codecStep (sampleConfig .kNone))
    (initCodecRun (sampleConfig .kNone) samplePool)
    [submitAt 0 .kOk 7, pollAt 1 [sampleCompletion] .success true, submitAt 2 .kOk 9]
    (fun _ => notClose)
    (fun run => run.accepted.map CodecRequestArgs.ctx == [7, 9] && run.returned.map CodecResult.ctx == [7])
    (fun _ _ => ne_close_of_notClose) (by decide)
  simp only [and_eq_true, beq_iff_eq] at hgoal
  exact ⟨run, hruns, hgoal.1, hgoal.2, codec_returns_in_order _ _ run hruns⟩

end Vesal.Proofs
