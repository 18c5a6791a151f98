import Vesal.Proofs.CodecDelivery
import Vesal.Proofs.CypherBooks

/-! # Whose memory it is -/

namespace Vesal.Proofs

section Rule

variable {π κ R : Type} [IORequest R]

/-- The requests were returned in their order, and the deleters that were called are those of
the requests returned with a timeout. Of the requests that were not returned, the deleters
may have been called or not. -/
structure DeletersKept (accepted : List R) (returned : List (StatusCode × Nat))
    (deleted : List (Nat × Nat)) : Prop where
  order : returned.map Prod.snd <+: accepted.map IORequest.ctx
  calls : ∃ unreturned, List.Sublist unreturned (accepted.drop returned.length) ∧
    deleted.Perm ((timedOut accepted returned ++ unreturned).flatMap deleterCalls)

omit [IORequest R] in
lemma timedOut_sublist (accepted : List R) (done : List (StatusCode × Nat)) :
    List.Sublist (timedOut accepted done) accepted := by
  induction accepted generalizing done with
  | nil => simp [timedOut]
  | cons r accepted ih =>
    cases done with
    | nil => simp [timedOut]
    | cons x done =>
      have htail := ih done
      unfold timedOut at htail ⊢
      rw [List.zip_cons_cons, List.filter_cons]
      split
      · exact htail.cons_cons r
      · exact htail.cons r

omit [IORequest R] in
lemma timedOut_append {accepted : List R} {done done' : List (StatusCode × Nat)}
    (hlen : done.length ≤ accepted.length) :
    timedOut accepted (done ++ done') = timedOut accepted done ++ timedOut (accepted.drop done.length) done' := by
  have htake : (accepted.take done.length).length = done.length := by
    rw [List.length_take, Nat.min_eq_left hlen]
  have hleft : timedOut accepted done = timedOut (accepted.take done.length) done := by
    rw [← timedOut_append_live htake, List.take_append_drop]
  rw [hleft]
  unfold timedOut
  nth_rewrite 1 [← List.take_append_drop done.length accepted]
  rw [List.zip_append htake, List.filter_append, List.map_append]

lemma Owned.deletersKept {userCtx : π → Nat} {b : Books π κ R} (h : Owned b) (hledger : Ledger userCtx b)
    (hfree : b.inFlight.freeTimers.timers = []) {returned buffered : List (StatusCode × Nat)}
    (hdone : b.done = returned ++ buffered) : DeletersKept b.accepted returned b.inFlight.deleted := by
  obtain ⟨freed, pending, hout, hdeleted, hpending⟩ := h
  rw [hfree] at hpending
  cases hpending
  have hlen : returned.length ≤ b.accepted.length := by
    have := hledger.length
    rw [hdone, List.length_append] at this
    omega
  have hprefix := hledger.prefix_ctx
  rw [hdone, List.map_append] at hprefix
  refine ⟨(List.prefix_append _ _).trans hprefix, timedOut (b.accepted.drop returned.length) buffered,
    timedOut_sublist _ _, ?_⟩
  rw [hdeleted, ← timedOut_append hlen, ← hdone, hout, List.append_nil]

end Rule

section Codec

open EngineState

variable {cfg : EngineConfig}

/-- What the events of a run must find for the deleters to be called as they should: no
request takes a slot that a free timer points to, the watchdog of the hardware stops no
request in flight, the unit is left while no timeout is in the list of results, and the
engine is closed when no free timer is left. -/
def KeepsMemory (cfg : EngineConfig) (run : CodecRun) (ev : CodecEvent) : Prop :=
  EventGuard cfg run ev ∧ ∀ env, ev = .close env → env.result = .kOk → run.engine.freeTimers.timers = []

def CodecOwned (cfg : EngineConfig) (run : CodecRun) : Prop :=
  (Kept cfg run ∧ Owned (codecBooks run.engine run.engine.timers.timers run.accepted run.returned)) ∨
    (run.engine.closed = true ∧ DeletersKept run.accepted (outcomes run.returned) run.engine.deleted)

variable {run : CodecRun}

variable {run' : CodecRun} {ev : CodecEvent}

lemma Kept.owned_step (h : Kept cfg run)
    (howned : Owned (codecBooks run.engine run.engine.timers.timers run.accepted run.returned))
    (hopen : KeepsOpen cfg run ev) (hguard : EventGuard cfg run ev) (hstep : codecStep cfg run ev = .ok run') :
    Owned (codecBooks run'.engine run'.engine.timers.timers run'.accepted run'.returned) := by
  have hadv : RunAdvances cfg True run run' := codecStep_advances h.ring hstep hopen fun _ => hguard
  exact howned.steps h.ledger hadv.steps

lemma Kept.deletersKept_close {env : CloseEnv} (h : Kept cfg run)
    (howned : Owned (codecBooks run.engine run.engine.timers.timers run.accepted run.returned))
    (hguard : NoWatchdogPolls cfg env.polls run.engine) (hfree : run.engine.freeTimers.timers = [])
    {st₁ : EngineState} (hpolls : env.polls.foldlM (fun st evs => pollInstance cfg evs st) run.engine = .ok st₁) :
    DeletersKept run.accepted (outcomes run.returned) st₁.deleted := by
  obtain ⟨hadv, -, -, hfree₁⟩ : EngineAdvances cfg True run.engine run.accepted run.returned st₁
      run.accepted run.returned ∧ _ :=
    closePolls_advances h.ring hpolls fun _ => hguard
  have hnone : st₁.freeTimers.timers = [] := (congrArg TimerManager.timers hfree₁).trans hfree
  exact (howned.steps h.ledger hadv.steps).deletersKept (h.ledger.steps hadv.steps) hnone
    (outcomes_append run.returned st₁.codecResults)

lemma CodecOwned.step (h : CodecOwned cfg run) (hguard : KeepsMemory cfg run ev)
    (hstep : codecStep cfg run ev = .ok run') : CodecOwned cfg run' := by
  rcases h with ⟨hkept, howned⟩ | ⟨hclosed, hdeleted⟩
  · by_cases hopen : KeepsOpen cfg run ev
    · exact Or.inl ⟨hkept.step hopen hstep, hkept.owned_step howned hopen hguard.1 hstep⟩
    · rcases codecStep_cases hstep with ⟨env, args, status, st, rfl, -⟩ |
        ⟨env, maxNum, n, results, st, rfl, -⟩ | ⟨env, status, st, rfl, hclose, rfl⟩ | ⟨pool, rfl, -⟩
      · exact absurd trivial hopen
      · exact absurd trivial hopen
      · obtain ⟨st₁, hpolls, ⟨-, hstatus, rfl⟩ | ⟨hresult, -, hclosed, hdeleted⟩⟩ :=
          close_cases hkept.opened hclose
        · refine absurd (fun st' hok => hstatus ?_) hopen
          rw [hclose] at hok
          cases hok
          rfl
        · refine Or.inr ⟨hclosed, ?_⟩
          rw [hdeleted]
          exact hkept.deletersKept_close howned hguard.1 (hguard.2 env rfl hresult) hpolls
      · exact absurd trivial hopen
  · rcases codecStep_cases hstep with ⟨env, args, status, st, rfl, hopen, -⟩ |
      ⟨env, maxNum, n, results, st, rfl, hopen, -⟩ | ⟨env, status, st, rfl, hclose, rfl⟩ | ⟨pool, rfl, rfl⟩
    · rw [hclosed] at hopen
      cases hopen
    · rw [hclosed] at hopen
      cases hopen
    · unfold EngineState.close at hclose
      rw [if_pos hclosed] at hclose
      cases hclose
      exact Or.inr ⟨hclosed, hdeleted⟩
    · exact Or.inr ⟨hclosed, hdeleted⟩

lemma codecOwned_init (cfg : EngineConfig) (pool : PoolState) : CodecOwned cfg (initCodecRun cfg pool) :=
  Or.inl ⟨kept_init cfg pool, [], [], rfl, rfl, List.Forall₂.nil⟩

lemma codec_deletersKept {pool : PoolState} (h : CodecRuns cfg (KeepsMemory cfg) (initCodecRun cfg pool) run)
    (hclosed : run.engine.closed = true) :
    DeletersKept run.accepted (outcomes run.returned) run.engine.deleted := by
  have howned : CodecOwned cfg run :=
    h.invariant (codecOwned_init cfg pool) fun _ _ _ hinv hguard hstep => hinv.step hguard hstep
  rcases howned with ⟨hkept, -⟩ | ⟨-, hdeleted⟩
  · rw [hkept.opened] at hclosed
    cases hclosed
  · exact hdeleted

end Codec

section Cypher

open ChannelState

variable {cfg : CypherConfig}

/-- What the events of a run must find for the deleters to be called as they should: no
request takes a slot that a free timer points to, and the channel is closed when no free timer
is left. -/
def CypherKeepsMemory (cfg : CypherConfig) (run : CypherRun) (ev : CypherEvent) : Prop :=
  CypherEventGuard cfg run ev ∧
    ∀ env closed, ev = .close env closed → env.result = .kOk → run.channel.freeTimers.timers = []

def CypherOwned (cfg : CypherConfig) (run : CypherRun) : Prop :=
  (∃ buffered, CypherKept cfg run buffered ∧
    Owned (viewOf run.channel run.accepted run.returned buffered).books) ∨
    (run.channel.closed = true ∧ DeletersKept run.accepted (cypherOutcomes run.returned) run.channel.deleted)

variable {run : CypherRun}

lemma CypherKept.deletersKept_close {buffered : List CypherResult} {env : UninitEnv}
    (h : CypherKept cfg run buffered) (howned : Owned (viewOf run.channel run.accepted run.returned buffered).books)
    (hfree : run.channel.freeTimers.timers = []) {st₁ : ChannelState}
    (hpolls : env.polls.foldlM (fun st evs => cyPollInstance cfg evs st) run.channel = .ok st₁) :
    DeletersKept run.accepted (cypherOutcomes run.returned) st₁.deleted := by
  obtain ⟨⟨buffered', hmoves⟩, hframe⟩ := uninitPolls_moves True h.ring h.queued hpolls
  have hsteps := hmoves.advances.steps
  have hnone : st₁.freeTimers.timers = [] := (congrArg TimerManager.timers hframe.freeTimers).trans hfree
  exact (howned.steps h.ledger hsteps).deletersKept (h.ledger.steps hsteps) hnone
    (cypherOutcomes_append run.returned buffered')

lemma CypherOwned.step {run' : CypherRun} {ev : CypherEvent} (h : CypherOwned cfg run)
    (hguard : CypherKeepsMemory cfg run ev) (hstep : cypherStep cfg run ev = .ok run') :
    CypherOwned cfg run' := by
  rcases h with ⟨buffered, hkept, howned⟩ | ⟨hclosed, hdeleted⟩
  · by_cases hopen : CypherKeepsOpen ev
    · obtain ⟨⟨buffered', hmoves⟩, hopened⟩ : (∃ buffered', Moves cfg True _ _) ∧ _ :=
        hkept.moves hstep hopen fun _ => hguard.1
      have hsteps := hmoves.advances.steps
      exact Or.inl ⟨buffered', ⟨hmoves.ring, hmoves.queued, hkept.ledger.steps hsteps, hopened⟩,
        howned.steps hkept.ledger hsteps⟩
    · obtain ⟨env, closed, st₁, rfl, hresult, hpolls, hclosed, hrun', hdeleted⟩ :=
        cypherStep_closes hkept.opened hopen hstep
      refine Or.inr ⟨hclosed, ?_⟩
      rw [hdeleted, hrun']
      exact hkept.deletersKept_close howned (hguard.2 env closed rfl hresult) hpolls
  · obtain ⟨hclosed', hrun', hsame⟩ := cypherStep_closed hclosed hstep
    refine Or.inr ⟨hclosed', ?_⟩
    rw [hsame, hrun']
    exact hdeleted

lemma cypher_deletersKept (hfits : cfg.QueueFits) {ivBuf : Nat} {pool : PoolState}
    (h : CypherRuns cfg (CypherKeepsMemory cfg) (initCypherRun cfg ivBuf pool) run)
    (hclosed : run.channel.closed = true) :
    DeletersKept run.accepted (cypherOutcomes run.returned) run.channel.deleted := by
  have hinit : CypherOwned cfg (initCypherRun cfg ivBuf pool) :=
    Or.inl ⟨[], cypherKept_init hfits ivBuf pool, [], [], rfl, rfl, List.Forall₂.nil⟩
  have howned : CypherOwned cfg run :=
    h.invariant hinit fun _ _ _ hinv hguard hstep => hinv.step hguard hstep
  rcases howned with ⟨buffered, hkept, -⟩ | ⟨-, hdeleted⟩
  · rw [hkept.opened] at hclosed
    cases hclosed
  · exact hdeleted

end Cypher

/-- In every run of either channel that keeps the memory, the deleters called up to the end of
`Close` follow the rule. -/
theorem deleters_follow_ownership (cfg : EngineConfig) (cypherCfg : CypherConfig) (ivBuf : Nat)
    (pool : PoolState) (run : CodecRun) (cypherRun : CypherRun) :
    (CodecRuns cfg (KeepsMemory cfg) (initCodecRun cfg pool) run → run.engine.closed = true →
      DeletersKept run.accepted (outcomes run.returned) run.engine.deleted) ∧
    (cypherCfg.QueueFits →
      CypherRuns cypherCfg (CypherKeepsMemory cypherCfg) (initCypherRun cypherCfg ivBuf pool) cypherRun →
      cypherRun.channel.closed = true →
      DeletersKept cypherRun.accepted (cypherOutcomes cypherRun.returned) cypherRun.channel.deleted) :=
  ⟨codec_deletersKept, fun hfits => cypher_deletersKept hfits⟩

def memoryCheck (run : CodecRun) : CodecEvent → Bool
  | .submit _ _ => run.engine.freeTimers.timers == []
  | .poll env _ => env.completions.all fun ev => ev.results.status != .wdogTimerErr
  | .close env => env.polls.isEmpty && run.engine.freeTimers.timers == []
  | .memory _ => true

lemma keepsMemory_of_check {cfg : EngineConfig} (hha : isHaEnabled cfg.opts.haPolicy = false) (run : CodecRun)
    (ev : CodecEvent) (h : memoryCheck run ev = true) : KeepsMemory cfg run ev := by
  cases ev with
  | submit env args =>
    have hnone : run.engine.freeTimers.timers = [] := by simpa [memoryCheck] using h
    refine ⟨⟨fun _ _ _ => by simp [hnone], fun habs => ?_⟩, by simp⟩
    rw [hha] at habs
    cases habs
  | poll env maxNum =>
    refine ⟨⟨fun _ k ev hev _ => ?_, fun _ _ _ habs => ?_⟩, by simp⟩
    · have hall : ∀ ev ∈ env.completions, ev.results.status ≠ .wdogTimerErr := by
        simpa [memoryCheck] using h
      exact hall ev (List.mem_of_getElem? hev)
    · rw [hha] at habs
      cases habs
  | close env =>
    have hboth : env.polls = [] ∧ run.engine.freeTimers.timers = [] := by simpa [memoryCheck] using h
    refine ⟨?_, fun _ _ _ => hboth.2⟩
    change NoWatchdogPolls cfg env.polls run.engine
    rw [hboth.1]
    trivial
  | memory pool => exact ⟨trivial, by simp⟩

def cypherMemoryCheck (run : CypherRun) : CypherEvent → Bool
  | .submit _ _ | .close _ _ => run.channel.freeTimers.timers == []
  | _ => true

lemma cypherKeepsMemory_of_check {cfg : CypherConfig} (run : CypherRun) (ev : CypherEvent)
    (h : cypherMemoryCheck run ev = true) : CypherKeepsMemory cfg run ev := by
  cases ev with
  | submit env args =>
    have hnone : run.channel.freeTimers.timers = [] := by simpa [cypherMemoryCheck] using h
    refine ⟨fun _ _ => ?_, by simp⟩
    simp [hnone]
  | close env closed =>
    have hnone : run.channel.freeTimers.timers = [] := by simpa [cypherMemoryCheck] using h
    exact ⟨trivial, fun _ _ _ _ => hnone⟩
  | poll env maxNum => exact ⟨trivial, by simp⟩
  | addSession algorithm => exact ⟨trivial, by simp⟩
  | removeSession env i => exact ⟨trivial, by simp⟩
  | memory pool => exact ⟨trivial, by simp⟩

def cypherSampleConfig : CypherConfig where
  size := (sampleConfig .kNone).size
  size_lt := by decide
  bufferMultiplier := 4
  queue_pos := by decide
  queue_lt := by decide
  dev := ⟨true, fun _ _ => 1⟩
  algorithm := .kSHA256
  userCb := false
  timeoutMs := 100
  msToDuration := id

def hashArgs (ctx : Nat) : CypherReqArgs :=
  ⟨(sampleArgs ctx).src, ⟨32, 8192, ctx, none, by decide⟩, .kHash, 0, ctx, none⟩

def hashAt (now ctx : Nat) : CypherEvent := .submit ⟨.success, now⟩ (hashArgs ctx)

def cypherPollAt (now : Nat) (completions : List ChannelState.Completion) : CypherEvent :=
  .poll ⟨completions, .success, now, fun _ => ⟨now, 0⟩, now, fun _ => ⟨.kUnknown, 0⟩⟩ 8

def hashCompletion : ChannelState.Completion := ⟨.success, fun _ => 0⟩

/-- A request of either channel times out, and its deleter is called before `Close`. -/
theorem deleters_follow_ownership_of_timeout :
    ∃ run cypherRun,
      (CodecRuns (sampleConfig .kNone) (KeepsMemory (sampleConfig .kNone))
        (initCodecRun (sampleConfig .kNone) samplePool) run ∧ run.engine.closed = true ∧
      outcomes run.returned = [(.kTimeout, 7)] ∧ run.engine.deleted = [(1, 7)] ∧
      DeletersKept run.accepted (outcomes run.returned) run.engine.deleted) ∧
      (CypherRuns cypherSampleConfig (CypherKeepsMemory cypherSampleConfig)
        (initCypherRun cypherSampleConfig 16384 samplePool) cypherRun ∧ cypherRun.channel.closed = true ∧
      cypherOutcomes cypherRun.returned = [(.kTimeout, 7)] ∧ cypherRun.channel.deleted = [(1, 7)] ∧
      DeletersKept cypherRun.accepted (cypherOutcomes cypherRun.returned) cypherRun.channel.deleted) := by
  have hallowed : ∀ run ev, memoryCheck run ev = true → KeepsMemory (sampleConfig .kNone) run ev :=
    keepsMemory_of_check rfl
  obtain ⟨run, hruns, -, hgoal⟩ := Library.exists_runs_of_reaches (codecStep (sampleConfig .kNone))
    (initCodecRun (sampleConfig .kNone) samplePool)
    [submitAt 0 .kOk 7, pollAt 200 [] .success true, pollAt 30000 [sampleCompletion] .success true,
      .close ⟨[], .kOk⟩]
    memoryCheck
    (fun run => run.engine.closed && outcomes run.returned == [(.kTimeout, 7)] && run.engine.deleted == [(1, 7)])
    hallowed (by decide)
  obtain ⟨cypherRun, hcypherRuns, -, hcypherGoal⟩ := Library.exists_runs_of_reaches
    (cypherStep cypherSampleConfig) (initCypherRun cypherSampleConfig 16384 samplePool)
    [hashAt 0 7, cypherPollAt 200 [], cypherPollAt 30000 [hashCompletion], .close ⟨[], .kOk⟩ 0]
    cypherMemoryCheck
    (fun run => run.channel.closed && cypherOutcomes run.returned == [(.kTimeout, 7)] &&
      run.channel.deleted == [(1, 7)])
    cypherKeepsMemory_of_check (by decide +kernel)
  simp only [Bool.and_eq_true, beq_iff_eq] at hgoal hcypherGoal
  have hrule := deleters_follow_ownership (sampleConfig .kNone) cypherSampleConfig 16384 samplePool run cypherRun
  exact ⟨run, cypherRun, ⟨hruns, hgoal.1.1, hgoal.1.2, hgoal.2, hrule.1 hruns hgoal.1.1⟩,
    hcypherRuns, hcypherGoal.1.1, hcypherGoal.1.2, hcypherGoal.2, hrule.2 (by decide) hcypherRuns hcypherGoal.1.1⟩

variable {returned : List (StatusCode × Nat)} {deleted : List (Nat × Nat)}

lemma not_deletersKept {R : Type} [IORequest R] {accepted : List R} (hlen : accepted.length ≤ returned.length)
    (hcalls : ¬ deleted.Perm ((timedOut accepted returned).flatMap deleterCalls)) :
    ¬ DeletersKept accepted returned deleted := by
  intro h
  obtain ⟨unreturned, hsub, hperm⟩ := h.calls
  rw [List.drop_eq_nil_of_le hlen, List.sublist_nil] at hsub
  rw [hsub, List.append_nil] at hperm
  exact hcalls hperm

def EndsWith (haPolicy : HaPolicy) (events : List CodecEvent) (accepted : List CodecRequestArgs)
    (returned : List (StatusCode × Nat)) (deleted : List (Nat × Nat)) : Prop :=
  ∃ run, runCodec (sampleConfig haPolicy) (initCodecRun (sampleConfig haPolicy) samplePool)
      (events ++ [.close ⟨[], .kOk⟩]) = .ok run ∧
    run.engine.closed = true ∧ run.accepted = accepted ∧ outcomes run.returned = returned ∧
    run.engine.deleted = deleted ∧ ¬ DeletersKept run.accepted (outcomes run.returned) run.engine.deleted

lemma endsWith_of_reaches {haPolicy : HaPolicy} {events : List CodecEvent} {accepted : List CodecRequestArgs}
    (h : Library.reaches (codecStep (sampleConfig haPolicy)) (fun _ _ => true)
      (fun run => run.engine.closed && run.accepted == accepted && outcomes run.returned == returned &&
        run.engine.deleted == deleted)
      (initCodecRun (sampleConfig haPolicy) samplePool) (events ++ [.close ⟨[], .kOk⟩]) = true)
    (hlen : accepted.length ≤ returned.length)
    (hcalls : ¬ deleted.Perm ((timedOut accepted returned).flatMap deleterCalls)) :
    EndsWith haPolicy events accepted returned deleted := by
  obtain ⟨run, -, hrun, hgoal⟩ := Library.exists_runs_of_reaches _ _ _ _ _ (fun _ _ h => h) h
  simp only [Bool.and_eq_true, beq_iff_eq] at hgoal
  obtain ⟨⟨⟨hclosed, rfl⟩, rfl⟩, rfl⟩ := hgoal
  exact ⟨run, hrun, hclosed, rfl, rfl, rfl, not_deletersKept hlen hcalls⟩

def pollNothingAt (now : Nat) (status : CpaStatus) : CodecEvent :=
  .poll ⟨[], status, now, fun _ => now, now, sampleHaEnv true⟩ 0

/-- The free timer of the request `7` calls the deleter of `9`, which has its slot by then; `Close`
drops it; a timeout that the hardware reports has none; one that a fallback drops still has one.
The cypher channel reuses slots in the same way. -/
theorem deleters_break_ownership :
    EndsWith .kNone
      [submitAt 0 .kOk 7, pollAt 200 [] .success true, pollAt 201 [sampleCompletion] .success true,
        submitAt 202 .kOk 9, pollAt 203 [sampleCompletion] .success true, pollAt 30000 [] .success true]
      [sampleArgs 7, sampleArgs 9] [(.kTimeout, 7), (.kOk, 9)] [(1, 9)] ∧
    EndsWith .kNone
      [submitAt 0 .kOk 7, pollAt 200 [] .success true, pollAt 201 [sampleCompletion] .success true]
      [sampleArgs 7] [(.kTimeout, 7)] [] ∧
    EndsWith .kNone
      [submitAt 0 .kOk 7,
        pollAt 1 [{ sampleCompletion with results := ⟨.wdogTimerErr, 0, 0, 0, 0, 0⟩ }] .success true]
      [sampleArgs 7] [(.kTimeout, 7)] [] ∧
    EndsWith .kHardware
      [submitAt 0 .kOk 7, pollNothingAt 200 .success, pollNothingAt 201 .fail, pollAt 30000 [] .success true]
      [sampleArgs 7] [(.kDropped, 7)] [(1, 7)] ∧
    ∃ run, runCypher cypherSampleConfig (initCypherRun cypherSampleConfig 16384 samplePool)
        [hashAt 0 7, cypherPollAt 200 [], cypherPollAt 201 [hashCompletion], hashAt 202 9,
          cypherPollAt 203 [hashCompletion], cypherPollAt 30000 [], .close ⟨[], .kOk⟩ 0] = .ok run ∧
      run.channel.closed = true ∧ cypherOutcomes run.returned = [(.kTimeout, 7), (.kOk, 9)] ∧
      run.channel.deleted = [(1, 9)] ∧
      ¬ DeletersKept run.accepted (cypherOutcomes run.returned) run.channel.deleted := by
  refine ⟨endsWith_of_reaches (by decide) (by decide) (by decide),
    endsWith_of_reaches (by decide) (by decide) (by decide),
    endsWith_of_reaches (by decide) (by decide) (by decide),
    endsWith_of_reaches (by decide) (by decide) (by decide), ?_⟩
  obtain ⟨run, -, hrun, hgoal⟩ := Library.exists_runs_of_reaches (cypherStep cypherSampleConfig)
    (initCypherRun cypherSampleConfig 16384 samplePool)
    [hashAt 0 7, cypherPollAt 200 [], cypherPollAt 201 [hashCompletion], hashAt 202 9,
      cypherPollAt 203 [hashCompletion], cypherPollAt 30000 [], .close ⟨[], .kOk⟩ 0]
    (fun _ _ => true)
    (fun run => run.channel.closed && run.accepted == [hashArgs 7, hashArgs 9] &&
      cypherOutcomes run.returned == [(.kTimeout, 7), (.kOk, 9)] && run.channel.deleted == [(1, 9)])
    (fun _ _ h => h) (by decide +kernel)
  simp only [Bool.and_eq_true, beq_iff_eq] at hgoal
  obtain ⟨⟨⟨hclosed, haccepted⟩, hreturned⟩, hdeleted⟩ := hgoal
  refine ⟨run, hrun, hclosed, hreturned, hdeleted, ?_⟩
  rw [haccepted, hreturned, hdeleted]
  exact not_deletersKept (by decide) (by decide)

end Vesal.Proofs
