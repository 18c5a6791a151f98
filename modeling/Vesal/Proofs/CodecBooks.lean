import Vesal.CodecEngine
import Vesal.Proofs.InFlightLedger

/-! # The books of the codec engine -/

namespace Vesal.Proofs

open EngineState List Function InFlight

variable {cfg : EngineConfig} {guarded : Prop} {st : EngineState}
  {accepted : List CodecRequestArgs} {returned : List CodecResult}

variable (p : EngineState → β) (rs : List CodecResult)

def outcomes : List (StatusCode × Nat) := rs.map fun r => (r.status, r.ctx)

lemma outcomes_append (rs rs' : List CodecResult) : outcomes (rs ++ rs') = outcomes rs ++ outcomes rs' :=
  map_append

lemma outcomes_snd : (outcomes rs).map Prod.snd = rs.map CodecResult.ctx := by
  rw [outcomes, map_map]
  rfl

lemma outcomes_pushResult (returned buffered : List CodecResult) (r : CodecResult) :
    outcomes (returned ++ (buffered ++ [r])) = outcomes (returned ++ buffered) ++ [(r.status, r.ctx)] := by
  rw [← append_assoc, outcomes_append]
  rfl

def codecBooks (st : EngineState) (ts : List (TimeoutContext Nat)) (accepted : List CodecRequestArgs)
    (returned : List CodecResult) : Books FrameMeta RequestCbContext CodecRequestArgs :=
  ⟨st.toInFlight, ts, accepted, outcomes (returned ++ st.codecResults)⟩

/-- The steps of the books that an engine makes; `ts` and `ts'` are the timers of the requests
in flight before and after. -/
def CodecAdvances (cfg : EngineConfig) (guarded : Prop) (st : EngineState)
    (ts : List (TimeoutContext Nat)) (accepted : List CodecRequestArgs) (returned : List CodecResult)
    (st' : EngineState) (ts' : List (TimeoutContext Nat)) (accepted' : List CodecRequestArgs)
    (returned' : List CodecResult) : Prop :=
  Advances FrameMeta.userCtx cfg.size guarded (codecBooks st ts accepted returned)
    (codecBooks st' ts' accepted' returned')

abbrev EngineAdvances (cfg : EngineConfig) (guarded : Prop) (st : EngineState) (accepted : List CodecRequestArgs)
    (returned : List CodecResult) (st' : EngineState) (accepted' : List CodecRequestArgs)
    (returned' : List CodecResult) : Prop :=
  CodecAdvances cfg guarded st st.timers.timers accepted returned st' st'.timers.timers accepted' returned'

variable {st' : EngineState} {args : CodecRequestArgs}

variable {ts : List (TimeoutContext Nat)} {β : Type} {ok : Bool} {ev : Completion} {c : Nat} {env : PollEnv}

lemma codecAdvances_of_books {b' : Books FrameMeta RequestCbContext CodecRequestArgs}
    {ts' : List (TimeoutContext Nat)} {accepted' : List CodecRequestArgs} {returned' : List CodecResult}
    (h : Advances FrameMeta.userCtx cfg.size guarded (codecBooks st ts accepted returned) b')
    (hinFlight : st'.toInFlight = b'.inFlight) (hts : ts' = b'.timers) (haccepted : accepted' = b'.accepted)
    (hdone : outcomes (returned' ++ st'.codecResults) = b'.done) :
    CodecAdvances cfg guarded st ts accepted returned st' ts' accepted' returned' := by
  have hb' : codecBooks st' ts' accepted' returned' = b' := by
    rw [codecBooks, hinFlight, hts, haccepted, hdone]
  unfold CodecAdvances
  rw [hb']
  exact h

variable {t : TimeoutContext Nat} {st₁ : EngineState} {status : StatusCode} {reqStatus : CpaDcReqStatus}
  {maxNum : Nat} {n : Int} {results : List CodecResult}

lemma interceptInflightReq_advances (hring : Ring cfg.size st.toInFlight (t :: ts)) (code : StatusCode)
    (hcode : guarded → code ≠ .kTimeout) :
    CodecAdvances cfg guarded st (t :: ts) accepted returned
      (interceptInflightReq cfg code t.timerArg st) ts accepted returned := by
  have hadv := intercept_advances FrameMeta.userCtx guarded
    (b := codecBooks st (t :: ts) accepted returned) hring rfl (replacementCb cfg) code hcode
  refine codecAdvances_of_books hadv rfl rfl rfl ?_
  exact outcomes_pushResult _ _ _

lemma onTimeout_advances (hring : Ring cfg.size st.toInFlight (t :: ts)) (clock : Nat → Nat) :
    CodecAdvances cfg guarded st (t :: ts) accepted returned
      (onTimeout cfg clock t.timerArg st) ts accepted returned := by
  have hadv := expire_advances FrameMeta.userCtx guarded
    (b := codecBooks st (t :: ts) accepted returned) hring rfl (replacementCb cfg)
    (clock (st.metas t.timerArg).reqId)
  refine codecAdvances_of_books hadv rfl rfl rfl ?_
  exact outcomes_pushResult _ _ _

lemma foldl_advances (f : Nat → EngineState → EngineState)
    (hf : ∀ (st : EngineState) (t : TimeoutContext Nat) (ts : List (TimeoutContext Nat)),
      Ring cfg.size st.toInFlight (t :: ts) →
      CodecAdvances cfg guarded st (t :: ts) accepted returned (f t.timerArg st) ts accepted returned)
    (fired ts : List (TimeoutContext Nat)) (hring : Ring cfg.size st.toInFlight (fired ++ ts)) :
    CodecAdvances cfg guarded st (fired ++ ts) accepted returned
      (fired.foldl (fun st t => f t.timerArg st) st) ts accepted returned := by
  induction fired generalizing st with
  | nil => exact ⟨hring, Relation.ReflTransGen.refl⟩
  | cons t fired ih =>
    have hfirst := hf st t (fired ++ ts) hring
    exact hfirst.trans (ih hfirst.ring)

lemma handleTimeout_proj (now : Nat) (clock : Nat → Nat)
    (hp : ∀ slot st, p (onTimeout cfg clock slot st) = p st) (st : EngineState) :
    p (handleTimeout cfg now clock st) =
      p (st.onInFlight fun s => { s with timers := s.timers.handleTimeout now }) :=
  foldl_proj p (fun st (t : TimeoutContext Nat) => hp t.timerArg st) _ _

lemma handleTimeout_timers (now : Nat) (clock : Nat → Nat) (st : EngineState) :
    (handleTimeout cfg now clock st).timers = st.timers.handleTimeout now :=
  handleTimeout_proj (·.timers) now clock (fun _ _ => rfl) st

lemma handleTimeout_advances (hring : Standing cfg.size st.toInFlight) (now : Nat)
    (clock : Nat → Nat) :
    EngineAdvances cfg guarded st accepted returned (handleTimeout cfg now clock st) accepted returned := by
  let st' := st.onInFlight fun s => { s with timers := s.timers.handleTimeout now }
  have hring' : Ring cfg.size st'.toInFlight st.timers.timers :=
    hring.congr rfl rfl rfl rfl rfl rfl rfl
  have hkeep : CodecAdvances cfg guarded st st.timers.timers accepted returned st' st.timers.timers
      accepted returned :=
    Advances.keep hring' (fun _ => SameRequest.refl _) rfl rfl
  unfold EngineAdvances
  rw [← st.timers.due_append_handleTimeout now] at hring' hkeep ⊢
  rw [handleTimeout_timers]
  exact hkeep.trans (foldl_advances (onTimeout cfg clock)
    (fun _ _ _ h => onTimeout_advances h clock) _ _ hring')

lemma dropInflightReqs_proj
    (hp : ∀ slot st, p (interceptInflightReq cfg .kDropped slot st) = p st) (st : EngineState) :
    p (dropInflightReqsAndGenDummyResults cfg st) =
      p (st.onInFlight fun s => { s with timers := s.timers.clearAndGetUserArg.2 }) := by
  unfold dropInflightReqsAndGenDummyResults
  rw [TimerManager.clearAndGetUserArg, foldl_map]
  exact foldl_proj p (fun st (t : TimeoutContext Nat) => hp t.timerArg st) _ _

lemma dropInflightReqs_advances (hring : Standing cfg.size st.toInFlight) :
    CodecAdvances cfg guarded st st.timers.timers accepted returned
      (dropInflightReqsAndGenDummyResults cfg st) [] accepted returned := by
  let st' := st.onInFlight fun s => { s with timers := s.timers.clearAndGetUserArg.2 }
  have hring' : Ring cfg.size st'.toInFlight st.timers.timers :=
    hring.congr rfl rfl rfl rfl rfl rfl rfl
  have hkeep : CodecAdvances cfg guarded st st.timers.timers accepted returned st' st.timers.timers
      accepted returned :=
    Advances.keep hring' (fun _ => SameRequest.refl _) rfl rfl
  unfold dropInflightReqsAndGenDummyResults
  rw [TimerManager.clearAndGetUserArg, foldl_map]
  have hfold : CodecAdvances cfg guarded st' (st.timers.timers ++ []) accepted returned _ [] accepted
      returned :=
    foldl_advances (interceptInflightReq cfg .kDropped)
      (fun _ _ _ h => interceptInflightReq_advances h .kDropped (fun _ => by decide)) _ []
      (by rw [append_nil]; exact hring')
  rw [append_nil] at hfold
  exact hkeep.trans hfold

lemma outcomes_modifyAll_snd (code : StatusCode) :
    (outcomes (modifyAll rs code)).map Prod.snd = (outcomes rs).map Prod.snd := by
  simp [outcomes, modifyAll, comp_def]

lemma outcomes_modifyAll_timeout {rs : List CodecResult} (h : ∀ r ∈ rs, r.status ≠ .kTimeout) :
    (outcomes (modifyAll rs .kDropped)).map (fun p => p.1 == .kTimeout) =
      (outcomes rs).map fun p => p.1 == .kTimeout := by
  simp only [outcomes, modifyAll, map_map]
  refine map_congr_left fun r hr => ?_
  simp [h r hr]

def retired (cfg : EngineConfig) (st : EngineState) : EngineState :=
  (clearRetiredQat cfg st).onInFlight fun s => { s with hw := [] }

lemma retired_timers (st : EngineState) : (retired cfg st).timers.timers = [] :=
  dropInflightReqs_proj (·.timers.timers) (fun _ _ => rfl)
    { st with codecResults := modifyAll st.codecResults .kDropped }

lemma retired_isFatal (st : EngineState) : (retired cfg st).isFatal = st.isFatal :=
  dropInflightReqs_proj (·.isFatal) (fun _ _ => rfl)
    { st with codecResults := modifyAll st.codecResults .kDropped }

lemma retired_closed (st : EngineState) : (retired cfg st).closed = st.closed :=
  dropInflightReqs_proj (·.closed) (fun _ _ => rfl)
    { st with codecResults := modifyAll st.codecResults .kDropped }

lemma retired_advances (hring : Standing cfg.size st.toInFlight)
    (hguard : guarded → ∀ r ∈ st.codecResults, r.status ≠ .kTimeout) :
    EngineAdvances cfg guarded st accepted returned (retired cfg st) accepted returned := by
  let st₁ := { st with codecResults := modifyAll st.codecResults .kDropped }
  have hrewrite : BookStep FrameMeta.userCtx guarded
      (codecBooks st st.timers.timers accepted returned)
      (codecBooks st₁ st.timers.timers accepted returned) := by
    refine BookStep.rewrite _ _ ?_ fun hg => ?_
    · simp only [codecBooks, outcomes_append, map_append, outcomes_modifyAll_snd, st₁]
    · simp only [codecBooks, outcomes_append, map_append, st₁,
        outcomes_modifyAll_timeout (hguard hg)]
  have hdrop : CodecAdvances cfg guarded st₁ st.timers.timers accepted returned
      (dropInflightReqsAndGenDummyResults cfg st₁) [] accepted returned := dropInflightReqs_advances hring
  have hretire : CodecAdvances cfg guarded (dropInflightReqsAndGenDummyResults cfg st₁) [] accepted
      returned (retired cfg st) [] accepted returned :=
    Advances.keep (hdrop.ring.retire.congr rfl rfl rfl rfl rfl rfl rfl) (fun _ => SameRequest.refl _)
      rfl rfl
  unfold EngineAdvances
  rw [retired_timers]
  exact ⟨hretire.ring, Relation.ReflTransGen.head hrewrite (hdrop.trans hretire).steps⟩

lemma handleHa_cases (cfg : EngineConfig) (env : HaEnv) (i : Nat) (error : StatusCode) (st : EngineState) :
    (cfg.ha.shouldFallback env.triggerErrorNum (env.now i) error st.errorTs).1 = false ∧
      (∃ errorTs, handleHa cfg env i error st = (false, { st with errorTs := errorTs })) ∨
    (cfg.ha.shouldFallback env.triggerErrorNum (env.now i) error st.errorTs).1 = true ∧
      ∃ errorTs, handleHa cfg env i error st = (env.reinit,
        { retired cfg { st with errorTs := errorTs } with isFatal := st.isFatal || !env.reinit }) := by
  unfold handleHa
  rcases hfall : cfg.ha.shouldFallback env.triggerErrorNum (env.now i) error st.errorTs with ⟨fallback, errorTs⟩
  cases fallback with
  | false => exact Or.inl ⟨rfl, errorTs, rfl⟩
  | true =>
    refine Or.inr ⟨rfl, errorTs, ?_⟩
    have hfatal : (retired cfg { st with errorTs := errorTs }).isFatal = st.isFatal := retired_isFatal _
    cases hreinit : env.reinit with
    | false => simp [retired]
    | true =>
      have hsame : (st.isFatal || !true) = (retired cfg { st with errorTs := errorTs }).isFatal := by
        rw [hfatal, Bool.not_true, Bool.or_false]
      rw [hsame]
      rfl

lemma handleHa_advances (hring : Standing cfg.size st.toInFlight) (env : HaEnv) (i : Nat)
    (error : StatusCode)
    (hguard : guarded → (cfg.ha.shouldFallback env.triggerErrorNum (env.now i) error st.errorTs).1 = true →
      ∀ r ∈ st.codecResults, r.status ≠ .kTimeout) :
    EngineAdvances cfg guarded st accepted returned (handleHa cfg env i error st).2 accepted returned := by
  rcases handleHa_cases cfg env i error st with ⟨-, errorTs, heq⟩ | ⟨hfall, errorTs, heq⟩
  · rw [heq]
    exact ⟨hring, Relation.ReflTransGen.refl⟩
  · rw [heq]
    have hring' : Ring cfg.size { st with errorTs := errorTs }.toInFlight st.timers.timers := hring
    have hret : CodecAdvances cfg guarded { st with errorTs := errorTs } st.timers.timers accepted returned
        _ _ accepted returned := retired_advances hring' fun hg => hguard hg hfall
    exact hret

lemma handleHa_closed (env : HaEnv) (i : Nat) (error : StatusCode) (st : EngineState) :
    (handleHa cfg env i error st).2.closed = st.closed := by
  rcases handleHa_cases cfg env i error st with ⟨-, errorTs, heq⟩ | ⟨-, errorTs, heq⟩
  · rw [heq]
  · rw [heq]
    exact retired_closed _

lemma setRequest_owner (cb : RequestCbContext) (opts : CodecChannelOption) (reqId : Nat)
    (args : CodecRequestArgs) (srcBuf dstBuf : QatBuf) :
    (cb.setRequest opts reqId args srcBuf dstBuf).engine = true ∧
      (cb.setRequest opts reqId args srcBuf dstBuf).reqId = reqId := by
  unfold RequestCbContext.setRequest
  split <;> exact ⟨rfl, rfl⟩

lemma stores_storeRequest (reqId : Nat) (args : CodecRequestArgs) (m : RequestMeta FrameMeta) :
    Stores FrameMeta.userCtx (storeFormat args (storeRequest reqId args m)) args where
  toStoresMemory := ⟨rfl, (storesMemory_storeMemory m args).block, rfl⟩
  ctx := rfl

lemma prepareCommonReqData_cases (h : prepareCommonReqData cfg args st = .ok (ok, st')) :
    let slot := cfg.size.slotOf st.nextReqId
    ∃ m bufs pool, m.valid = (st.metas slot).valid ∧
      (ok = false ∧
        st' = (st.onInFlight fun s => { s.setMeta slot m with bufs := bufs, pool := pool }) ∨
      ok = true ∧ Stores FrameMeta.userCtx m args ∧ m.info = frameMetaOf args ∧ m.reqId = st.nextReqId ∧
        ∃ cb : RequestCbContext, cb.engine = true ∧ cb.reqId = st.nextReqId ∧
          st' = (st.onInFlight fun s =>
            { (s.setMeta slot m).setCb (s.cbPool slot) cb with bufs := bufs, pool := pool })) := by
  intro slot
  unfold prepareCommonReqData at h
  split at h
  · cases h
  dsimp only at h
  split at h
  · rename_i srcBuf dstBuf bufs hbufs
    have htwice : ∀ s : InFlight FrameMeta RequestCbContext,
        (s.setMeta slot (storeRequest st.nextReqId args (s.metas slot))).setMeta slot
          (storeFormat args ((s.setMeta slot (storeRequest st.nextReqId args (s.metas slot))).metas slot)) =
        s.setMeta slot (storeFormat args (storeRequest st.nextReqId args (s.metas slot))) := by
      simp [setMeta]
    split at h
    · cases h
    · rename_i srcBuf' dstBuf' pool hfill
      obtain ⟨rfl, rfl⟩ := h
      refine ⟨storeFormat args (storeRequest st.nextReqId args (st.metas slot)),
        dstBuf' :: srcBuf' :: bufs, pool, rfl, Or.inl ⟨rfl, ?_⟩⟩
      simp only [onInFlight]
      rw [htwice]
    · rename_i srcBuf' dstBuf' pool hfill
      obtain ⟨rfl, rfl⟩ := h
      have howner := setRequest_owner (st.cbs (st.cbPool slot)) cfg.opts st.nextReqId args srcBuf' dstBuf'
      refine ⟨storeFormat args (storeRequest st.nextReqId args (st.metas slot)), bufs, pool, rfl,
        Or.inr ⟨rfl, stores_storeRequest _ _ _, rfl, rfl, _, howner.1, howner.2, ?_⟩⟩
      simp only [onInFlight]
      rw [htwice]
      rfl
  · simp only [Except.ok.injEq, Prod.mk.injEq] at h
    obtain ⟨rfl, rfl⟩ := h
    exact ⟨storeRequest st.nextReqId args (st.metas slot), st.bufs, st.pool, rfl, Or.inl ⟨rfl, rfl⟩⟩

/-- A request that comes to the driver: its options are known, the engine lives and has a slot, and
the first two buffers of the cache can be filled with it. -/
structure Admitted (cfg : EngineConfig) (args : CodecRequestArgs) (st : EngineState) : Prop where
  options : checkSessionOption args = true
  alive : st.isFatal = false
  slot : qatRingFull cfg st = false
  blocks : args.src.length ≤ vesalMaxSglNum
  filled : ∃ srcBuf dstBuf bufs filled, st.bufs = srcBuf :: dstBuf :: bufs ∧
    fillRequestBuffers cfg.dev args srcBuf dstBuf st.pool = .ok (true, filled)

lemma admitted_of_prepared (hopt : checkSessionOption args = true) (hfatal : st.isFatal = false)
    (hfull : qatRingFull cfg st = false) (h : prepareCommonReqData cfg args st = .ok (true, st')) :
    Admitted cfg args st := by
  unfold prepareCommonReqData at h
  split at h
  · cases h
  rename_i hblocks
  dsimp only at h
  split at h
  · rename_i srcBuf dstBuf bufs hbufs
    split at h
    · cases h
    · cases h
    · rename_i hfill
      exact ⟨hopt, hfatal, hfull, not_lt.mp hblocks, srcBuf, dstBuf, bufs, _, hbufs, hfill⟩
  · cases h

lemma dropMeta_of_invalid {π κ : Type} {s : InFlight π κ} {slot : Nat}
    (h : (s.metas slot).valid = false) : s.dropMeta slot = s := by
  simp [dropMeta, h]

structure Prepared (cfg : EngineConfig) (args : CodecRequestArgs) (ok : Bool)
    (st st₁ : EngineState) : Prop where
  nextReqId : st₁.nextReqId = st.nextReqId
  inQatNum : st₁.inQatNum = st.inQatNum
  timers : st₁.timers = st.timers
  hw : st₁.hw = st.hw
  codecResults : st₁.codecResults = st.codecResults
  errorTs : st₁.errorTs = st.errorTs
  isFatal : st₁.isFatal = st.isFatal
  closed : st₁.closed = st.closed
  stores : ok = true → Stores FrameMeta.userCtx (st₁.metas (cfg.size.slotOf st₁.nextReqId)) args ∧
    (st₁.metas (cfg.size.slotOf st₁.nextReqId)).reqId = st₁.nextReqId
  info : ok = true → (st₁.metas (cfg.size.slotOf st₁.nextReqId)).info = frameMetaOf args
  cb : ok = true → (st₁.cbs (st₁.cbPool (cfg.size.slotOf st₁.nextReqId))).engine = true ∧
    (st₁.cbs (st₁.cbPool (cfg.size.slotOf st₁.nextReqId))).reqId = st₁.nextReqId

lemma prepareCommonReqData_prepared (h : prepareCommonReqData cfg args st = .ok (ok, st₁)) :
    Prepared cfg args ok st st₁ := by
  obtain ⟨m, bufs, pool, -, ⟨rfl, rfl⟩ | ⟨rfl, hstores, hinfo, hreqId, cb, howner, hid, rfl⟩⟩ :=
    prepareCommonReqData_cases h
  · exact ⟨rfl, rfl, rfl, rfl, rfl, rfl, rfl, rfl, by simp, by simp, by simp⟩
  · have hmeta : Function.update st.metas (cfg.size.slotOf st.nextReqId) m
        (cfg.size.slotOf st.nextReqId) = m := update_self _ _ _
    have hcb : Function.update st.cbs (st.cbPool (cfg.size.slotOf st.nextReqId)) cb
        (st.cbPool (cfg.size.slotOf st.nextReqId)) = cb := update_self _ _ _
    refine ⟨rfl, rfl, rfl, rfl, rfl, rfl, rfl, rfl, fun _ => ?_, fun _ => ?_, fun _ => ?_⟩
    · rw [← hmeta] at hstores hreqId
      exact ⟨hstores, hreqId⟩
    · rw [← hmeta] at hinfo
      exact hinfo
    · rw [← hcb] at howner hid
      exact ⟨howner, hid⟩

lemma submitAsyncRequest_cases {env : SubmitEnv} (h : submitAsyncRequest cfg env args st = .ok (status, st')) :
    let slot := cfg.size.slotOf st.nextReqId
    status ≠ .kOk ∧ st' = st ∨
      checkSessionOption args = true ∧ st.isFatal = false ∧ qatRingFull cfg st = false ∧ ∃ ok st₁,
        prepareCommonReqData cfg args st = .ok (ok, st₁) ∧
        (ok = false ∧ status ≠ .kOk ∧ st' = st₁.onInFlight (·.cleanUpReqData cfg.dev (some slot) none) ∨
        ok = true ∧ env.driver = .kOk ∧ status = .kOk ∧
          st' = (st₁.onInFlight fun s => (s.submit (st₁.cbPool slot)).tagInFlight env.now slot) ∨
        ok = true ∧ env.driver ≠ .kOk ∧ status = env.driver ∧ st' = (handleSubmitError cfg env st₁).onInFlight
          (·.cleanUpReqData cfg.dev (some slot) (some (st₁.cbPool slot)))) := by
  unfold submitAsyncRequest at h
  dsimp only at h
  split at h
  · cases h
    exact Or.inl ⟨by decide, rfl⟩
  rename_i hopt
  split at h
  · cases h
    exact Or.inl ⟨by decide, rfl⟩
  rename_i hfatal
  split at h
  · cases h
    exact Or.inl ⟨by decide, rfl⟩
  rename_i hfull
  simp only [Bool.not_eq_true, Bool.not_eq_false'] at hopt hfatal hfull
  refine Or.inr ⟨hopt, hfatal, hfull, ?_⟩
  split at h
  · cases h
  · rename_i st₁ hprepare
    cases h
    exact ⟨false, st₁, hprepare, Or.inl ⟨rfl, by decide, rfl⟩⟩
  · rename_i st₁ hprepare
    refine ⟨true, st₁, hprepare, Or.inr ?_⟩
    split at h
    · rename_i hdriver
      cases h
      exact Or.inl ⟨rfl, hdriver, rfl, rfl⟩
    · rename_i hdriver
      cases h
      exact Or.inr ⟨rfl, hdriver, rfl, rfl⟩

lemma prepareCommonReqData_advances (hring : Standing cfg.size st.toInFlight)
    (hroom : st.inQatNum < cfg.size.maxInQatSize)
    (hguard : guarded → ∀ t ∈ st.freeTimers.timers, t.timerArg.slot ≠ cfg.size.slotOf st.nextReqId)
    (h : prepareCommonReqData cfg args st = .ok (ok, st₁)) :
    EngineAdvances cfg guarded st accepted returned st₁ accepted returned := by
  obtain ⟨m, bufs, pool, hm, hcase⟩ := prepareCommonReqData_cases h
  have hwrite := write_advances FrameMeta.userCtx guarded
    (b := codecBooks st st.timers.timers accepted returned) hring hroom rfl
    (hm.trans (hring.next_invalid hroom)) hguard
  obtain ⟨-, rfl⟩ | ⟨-, -, -, -, cb, -, -, rfl⟩ := hcase
  · refine hwrite.trans ?_
    exact Advances.keep (hwrite.ring.congr rfl rfl rfl rfl rfl rfl rfl) (fun _ => SameRequest.refl _) rfl rfl
  · have hset := hwrite.ring.setCb (hring.next_cb_free hroom) cb
    refine hwrite.trans ?_
    exact Advances.keep (hset.congr rfl rfl rfl rfl rfl rfl rfl) (fun _ => SameRequest.refl _) rfl rfl

lemma handleHa_queue (cfg : EngineConfig) (env : HaEnv) (i : Nat) (error : StatusCode) (st : EngineState) :
    ((handleHa cfg env i error st).2.metas = st.metas ∧ (handleHa cfg env i error st).2.hw = st.hw) ∨
    ((handleHa cfg env i error st).2.timers.timers = [] ∧ (handleHa cfg env i error st).2.hw = []) := by
  rcases handleHa_cases cfg env i error st with ⟨-, errorTs, heq⟩ | ⟨-, errorTs, heq⟩
  · rw [heq]
    exact Or.inl ⟨rfl, rfl⟩
  · rw [heq]
    exact Or.inr ⟨retired_timers _, rfl⟩

lemma handleSubmitError_queue (cfg : EngineConfig) (env : SubmitEnv) (st : EngineState) :
    ((handleSubmitError cfg env st).metas = st.metas ∧ (handleSubmitError cfg env st).hw = st.hw) ∨
    ((handleSubmitError cfg env st).timers.timers = [] ∧ (handleSubmitError cfg env st).hw = []) := by
  unfold handleSubmitError
  split
  · exact handleHa_queue cfg env.ha 0 env.driver st
  · split <;> exact Or.inl ⟨rfl, rfl⟩

section

variable (hring : Standing cfg.size st.toInFlight)
include hring

lemma handleSubmitError_advances (env : SubmitEnv) (hguard : guarded → isHaEnabled cfg.opts.haPolicy = true →
      (cfg.ha.shouldFallback env.ha.triggerErrorNum (env.ha.now 0) env.driver st.errorTs).1 = true →
      ∀ r ∈ st.codecResults, r.status ≠ .kTimeout) :
    EngineAdvances cfg guarded st accepted returned (handleSubmitError cfg env st) accepted returned := by
  unfold handleSubmitError
  split
  · rename_i hha
    exact handleHa_advances hring env.ha 0 env.driver fun hg => hguard hg hha
  · split <;> exact ⟨hring, Relation.ReflTransGen.refl⟩

lemma handleSubmitError_invalid (hroom : st.inQatNum < cfg.size.maxInQatSize) (env : SubmitEnv) :
    ((handleSubmitError cfg env st).metas (cfg.size.slotOf st.nextReqId)).valid = false := by
  have herror : CodecAdvances cfg False st st.timers.timers [] [] (handleSubmitError cfg env st) _ [] [] :=
    handleSubmitError_advances hring env False.elim
  rcases handleSubmitError_queue cfg env st with ⟨hmetas, -⟩ | ⟨htimers, -⟩
  · rw [hmetas]
    exact hring.next_invalid hroom
  · rw [← Bool.not_eq_true]
    intro hvalid
    obtain ⟨t, ht, -⟩ := herror.ring.valid _ hvalid
    simp [codecBooks, htimers] at ht

/-- What `SubmitAsyncRequest` must find for its steps to be guarded: no free timer points to
the slot that it takes, and no timeout is buffered when it leaves the unit. -/
structure SubmitGuard (cfg : EngineConfig) (env : SubmitEnv) (args : CodecRequestArgs)
    (st : EngineState) : Prop where
  slot : checkSessionOption args = true → st.isFatal = false → qatRingFull cfg st = false →
    ∀ t ∈ st.freeTimers.timers, t.timerArg.slot ≠ cfg.size.slotOf st.nextReqId
  fallback : isHaEnabled cfg.opts.haPolicy = true → env.driver ≠ .kOk →
    (cfg.ha.shouldFallback env.ha.triggerErrorNum (env.ha.now 0) env.driver st.errorTs).1 = true →
    ∀ r ∈ st.codecResults, r.status ≠ .kTimeout

lemma submitAsyncRequest_advances {env : SubmitEnv} (h : submitAsyncRequest cfg env args st = .ok (status, st'))
    (hguard : guarded → SubmitGuard cfg env args st) :
    EngineAdvances cfg guarded st accepted returned st'
      (if status = .kOk then accepted ++ [args] else accepted) returned := by
  rcases submitAsyncRequest_cases h with ⟨hstatus, rfl⟩ | ⟨hopt, hfatal, hfull, ok, st₁, hprepare, hcase⟩
  · rw [if_neg hstatus]
    exact ⟨hring, Relation.ReflTransGen.refl⟩
  · have hroom : st.inQatNum < cfg.size.maxInQatSize := by
      simpa [qatRingFull] using hfull
    have hprep := prepareCommonReqData_prepared hprepare
    have hadv : CodecAdvances cfg guarded st st.timers.timers accepted returned st₁ _ accepted returned :=
      prepareCommonReqData_advances hring hroom (fun hg => (hguard hg).slot hopt hfatal hfull) hprepare
    rcases hcase with ⟨-, hstatus, rfl⟩ | ⟨rfl, -, rfl, rfl⟩ | ⟨-, hdriver, rfl, rfl⟩
    · -- the slot is written, but no request is there
      have hinvalid := hadv.ring.next_invalid (hprep.inQatNum ▸ hroom)
      simp only [codecBooks, hprep.nextReqId] at hinvalid
      rw [if_neg hstatus]
      simp only [onInFlight, cleanUpReqData, dropMeta_of_invalid hinvalid]
      exact hadv
    · refine hadv.trans ?_
      rw [← hprep.nextReqId]
      exact accept_advances FrameMeta.userCtx guarded hadv.ring (hprep.inQatNum ▸ hroom) rfl
        (hprep.cb rfl).1 (hprep.cb rfl).2 (hprep.stores rfl).2 (hprep.stores rfl).1 env.now
    · rw [if_neg hdriver]
      have herror : CodecAdvances cfg guarded st₁ st₁.timers.timers accepted returned
          (handleSubmitError cfg env st₁) _ accepted returned :=
        handleSubmitError_advances hadv.ring env fun hg hha hfall => by
          rw [hprep.codecResults]
          exact (hguard hg).fallback hha hdriver (hprep.errorTs ▸ hfall)
      have hroom₁ : st₁.inQatNum < cfg.size.maxInQatSize := hprep.inQatNum ▸ hroom
      have hinvalid : ((handleSubmitError cfg env st₁).metas (cfg.size.slotOf st.nextReqId)).valid = false := by
        rw [← hprep.nextReqId]
        exact handleSubmitError_invalid hadv.ring hroom₁ env
      have hfree : st₁.cbPool (cfg.size.slotOf st.nextReqId) ∉ (handleSubmitError cfg env st₁).hw := by
        rcases handleSubmitError_queue cfg env st₁ with ⟨-, hhw⟩ | ⟨-, hhw⟩
        · rw [hhw, ← hprep.nextReqId]
          exact hadv.ring.next_cb_free hroom₁
        · rw [hhw]
          exact not_mem_nil
      simp only [onInFlight, cleanUpReqData, dropMeta_of_invalid hinvalid]
      have htimers := resetCb_proj (·.timers.timers) (fun _ _ _ _ => rfl) cfg.dev
        (st₁.cbPool (cfg.size.slotOf st.nextReqId)) (handleSubmitError cfg env st₁).toInFlight
      unfold EngineAdvances
      rw [htimers]
      exact (hadv.trans herror).trans (resetCb_advances FrameMeta.userCtx guarded herror.ring hfree cfg.dev)

end

lemma submitAsyncRequest_closed {env : SubmitEnv} (h : submitAsyncRequest cfg env args st = .ok (status, st')) :
    st'.closed = st.closed := by
  rcases submitAsyncRequest_cases h with ⟨-, rfl⟩ | ⟨-, -, -, ok, st₁, hprepare, hcase⟩
  · rfl
  · have hclosed := (prepareCommonReqData_prepared hprepare).closed
    rcases hcase with ⟨-, -, rfl⟩ | ⟨-, -, -, rfl⟩ | ⟨-, -, -, rfl⟩
    · exact hclosed
    · exact hclosed
    · refine Eq.trans ?_ hclosed
      change (handleSubmitError cfg env st₁).closed = st₁.closed
      unfold handleSubmitError
      split
      · exact handleHa_closed env.ha 0 env.driver st₁
      · split <;> rfl

/-- The sizes of a completed request: those of the hardware, and the frame on the side of the
compressed data. -/
def reportedSizes (info : FrameMeta) (results : CpaDcRqResults) : Nat × Nat :=
  let frameSize := info.headerSize + info.footerSize
  if info.direction = .kComp then (results.consumed, results.produced + frameSize)
  else (results.consumed + frameSize, results.produced)

structure Succeeds (info : FrameMeta) (ev : Completion) (r : CodecResult) : Prop where
  status : ev.status = .success
  reqStatus : ev.results.status = .ok
  consumed : r.consumed = (reportedSizes info ev.results).1 % 2 ^ 32
  produced : r.produced = (reportedSizes info ev.results).2 % 2 ^ 32

structure ResultOf (info : FrameMeta) (ev : Completion) (r : CodecResult) : Prop where
  ctx : r.ctx = info.userCtx
  timeout : ev.results.status ≠ .wdogTimerErr → r.status ≠ .kTimeout
  ok : r.status = .kOk → Succeeds info ev r

lemma callbackSuccess_result {dev : DmaUnit} {opts : CodecChannelOption} {req : FrameMeta}
    {cb : RequestCbContext} {results : CpaDcRqResults} {scratch : ZlibScratch} {mem mem' : Library.Memory}
    {r : CodecResult} (h : callbackSuccess dev opts req cb results scratch mem = .ok (mem', r)) :
    ∃ inCrc outCrc, r = successResult req.userCtx (reportedSizes req results).1
      (reportedSizes req results).2 inCrc outCrc := by
  unfold callbackSuccess at h
  cases hdst : cb.dstQat with
  | none => simp [hdst] at h
  | some dstQat =>
    simp only [hdst, bind, Except.bind, pure, Except.pure, getQatProcessedDataSize] at h
    by_cases hdir : req.direction = .kComp
    · simp only [hdir, if_true] at h
      simp only [reportedSizes, hdir, if_true]
      split at h
      · split at h
        · cases h
        · split at h
          · cases h
          · cases h
            exact ⟨_, _, rfl⟩
      · cases h
        exact ⟨_, _, rfl⟩
    · simp only [hdir, if_false] at h
      simp only [reportedSizes, hdir, if_false]
      split at h
      · split at h
        · cases h
        · split at h
          · cases h
          · cases h
            exact ⟨_, _, rfl⟩
      · cases h
        exact ⟨_, _, rfl⟩

lemma completionStatusCode_ne_timeout (status : CpaStatus) (h : reqStatus ≠ .wdogTimerErr) :
    completionStatusCode status reqStatus ≠ .kTimeout := by
  unfold completionStatusCode
  split
  · cases reqStatus <;> simp_all [cpaDcReqStatusToVesalStatusCode]
  · cases status <;> simp [cpaStatusToVesalStatusCode]

lemma completionStatusCode_ne_ok {status : CpaStatus} (h : status ≠ .success ∨ reqStatus ≠ .ok) :
    completionStatusCode status reqStatus ≠ .kOk := by
  unfold completionStatusCode
  split
  · cases reqStatus <;> simp_all [cpaDcReqStatusToVesalStatusCode]
  · rename_i hreq
    have hstatus : status ≠ .success := h.resolve_right hreq
    cases status <;> simp_all [cpaStatusToVesalStatusCode]

structure CalledBack (st st' : EngineState) : Prop where
  nextReqId : st'.nextReqId = st.nextReqId
  nextRecvReqId : st'.nextRecvReqId = st.nextRecvReqId + 1
  inQatNum : st'.inQatNum = st.inQatNum
  hw : st'.hw = st.hw
  callbackCalledTimes : st'.callbackCalledTimes = st.callbackCalledTimes + 1
  isFatal : st'.isFatal = st.isFatal
  closed : st'.closed = st.closed
  errorTs : st'.errorTs = st.errorTs
  freeTimers : st'.freeTimers = st.freeTimers
  valid : ∀ slot, (st'.metas slot).valid = true → (st.metas slot).valid = true

def calledBack (st : EngineState) (results : List CodecResult) (pool : PoolState) : EngineState :=
  { st with
    callbackCalledTimes := st.callbackCalledTimes + 1
    nextRecvReqId := st.nextRecvReqId + 1
    codecResults := st.codecResults ++ results
    pool := pool }

lemma callback_cases (h : callback cfg ev c st = .ok st') :
    let slot := cfg.size.slotOf (st.cbs c).reqId
    ((st.metas slot).valid = false ∧ ∃ pool, st' =
      (calledBack st [] pool).onInFlight (·.cleanUpReqData cfg.dev none (some c))) ∨
    ((st.metas slot).valid = true ∧ ∃ pool r, st' =
      (calledBack st [r] pool).onInFlight (·.cleanUpReqData cfg.dev (some slot) (some c)) ∧
      ResultOf (st.metas slot).info ev r) := by
  intro slot
  unfold callback at h
  dsimp only at h
  split at h
  · cases h
  split at h
  · rename_i hinvalid
    cases h
    refine Or.inl ⟨by simpa using hinvalid, { st.pool with mem := ev.mem }, ?_⟩
    simp only [calledBack, append_nil]
  · rename_i hvalid
    have hvalid' : (st.metas slot).valid = true := by simpa using hvalid
    split at h
    · rename_i hfailed
      cases h
      refine Or.inr ⟨hvalid', _, failedResult _ _, rfl, rfl, completionStatusCode_ne_timeout _, ?_⟩
      intro hok
      exact absurd hok (completionStatusCode_ne_ok hfailed)
    · rename_i hcompleted
      simp only [not_or, not_not] at hcompleted
      split at h
      · cases h
      · rename_i mem result hsuccess
        cases h
        obtain ⟨inCrc, outCrc, rfl⟩ := callbackSuccess_result hsuccess
        refine Or.inr ⟨hvalid', _, _, rfl, rfl, fun _ => by simp [successResult], fun _ => ?_⟩
        exact ⟨hcompleted.1, hcompleted.2, rfl, rfl⟩

lemma callback_frame (h : callback cfg ev c st = .ok st') :
    CalledBack st st' := by
  have hclean : ∀ results pool slot, CalledBack st
      ((calledBack st results pool).onInFlight (·.cleanUpReqData cfg.dev slot (some c))) := by
    intro results pool slot
    obtain ⟨metas, timers, bufs, pool', heq, hvalid⟩ :=
      cleanUpReqData_frame cfg.dev slot c (calledBack st results pool).toInFlight
    simp only [onInFlight, heq]
    exact ⟨rfl, rfl, rfl, rfl, rfl, rfl, rfl, rfl, rfl, hvalid⟩
  rcases callback_cases h with ⟨-, pool, rfl⟩ | ⟨-, pool, r, rfl, -⟩
  · exact hclean _ _ _
  · exact hclean _ _ _

lemma callback_advances {hw : List Nat} (hring : Standing cfg.size st.toInFlight)
    (hhw : st.hw = c :: hw) (h : callback cfg ev c (st.onInFlight fun s => { s with hw := hw }) = .ok st')
    (hguard : guarded → (st.metas (cfg.size.slotOf (st.cbs c).reqId)).valid = true →
      ev.results.status ≠ .wdogTimerErr) :
    EngineAdvances cfg guarded st accepted returned st' accepted returned := by
  have hle := hring.hw_le_inQatNum
  rw [hhw, length_cons] at hle
  rcases callback_cases h with ⟨hinvalid, pool, rfl⟩ | ⟨hvalid, pool, r, rfl, hresult⟩
  · have hlate : Advances FrameMeta.userCtx cfg.size guarded
        (codecBooks st st.timers.timers accepted returned)
        { codecBooks st st.timers.timers accepted returned with
          inFlight := (popped st.toInFlight hw st.inQatNum pool).cleanUpReqData cfg.dev none (some c) } :=
      late_advances FrameMeta.userCtx guarded pool hring hhw (Nat.le_of_succ_le hle) (Nat.le_refl _) cfg.dev hinvalid
    refine codecAdvances_of_books hlate rfl ?_ rfl ?_
    · exact resetCb_proj (·.timers.timers) (fun _ _ _ _ => rfl) cfg.dev c
        (popped st.toInFlight hw st.inQatNum pool)
    · exact congrArg (fun rs => outcomes (returned ++ rs)) (append_nil st.codecResults)
  · obtain ⟨t, ts, hts, hlen, hslot⟩ := hring.head_valid hhw hvalid
    have hcomplete := complete_advances FrameMeta.userCtx guarded pool
      (b := codecBooks st st.timers.timers accepted returned) hring hts hts hhw hlen
      (Nat.le_of_succ_le hle) (Nat.le_refl _) cfg.dev r.status fun hg => hresult.timeout (hguard hg hvalid)
    rw [hslot] at hcomplete
    refine codecAdvances_of_books hcomplete.1 rfl hcomplete.2 rfl ?_
    refine (outcomes_pushResult returned st.codecResults r).trans ?_
    exact congrArg (fun ctx => outcomes (returned ++ st.codecResults) ++ [(r.status, ctx)]) hresult.ctx

/-- The watchdog of the hardware does not stop a request in flight: completion `k` is that of
the `k`-th oldest request in the hardware. -/
def NoWatchdog (cfg : EngineConfig) (evs : List Completion) (st : EngineState) : Prop :=
  ∀ k ev, evs[k]? = some ev →
    (st.metas (cfg.size.slotOf (st.nextReqId - st.hw.length + k))).valid = true →
    ev.results.status ≠ .wdogTimerErr

/-- What polling the hardware leaves as it is: the count is lowered only later, by the
number of callbacks. -/
structure Polled (st st' : EngineState) : Prop where
  inQatNum : st'.inQatNum = st.inQatNum
  count : st'.hw.length + st'.callbackCalledTimes = st.hw.length + st.callbackCalledTimes
  isFatal : st'.isFatal = st.isFatal
  closed : st'.closed = st.closed
  freeTimers : st'.freeTimers = st.freeTimers

lemma pollInstance_advances {evs : List Completion} (hring : Standing cfg.size st.toInFlight)
    (h : pollInstance cfg evs st = .ok st') (hguard : guarded → NoWatchdog cfg evs st) :
    EngineAdvances cfg guarded st accepted returned st' accepted returned ∧ Polled st st' := by
  induction evs generalizing st with
  | nil =>
    cases h
    exact ⟨⟨hring, Relation.ReflTransGen.refl⟩, rfl, rfl, rfl, rfl, rfl⟩
  | cons ev evs ih =>
    unfold pollInstance at h
    split at h
    · cases h
      exact ⟨⟨hring, Relation.ReflTransGen.refl⟩, rfl, rfl, rfl, rfl, rfl⟩
    · rename_i c hw hhw
      split at h
      · cases h
      · rename_i st₁ hcallback
        have hreqId := (hring.head_reqId hhw).2
        have hfirst : EngineAdvances cfg guarded st accepted returned st₁ accepted returned := by
          refine callback_advances hring hhw hcallback fun hg hvalid => ?_
          refine hguard hg 0 ev rfl ?_
          rw [hhw, length_cons, Nat.add_zero, ← hreqId]
          exact hvalid
        have hframe := callback_frame hcallback
        have hhw₁ : st₁.hw = hw := hframe.hw
        have hlater : guarded → NoWatchdog cfg evs st₁ := by
          intro hg k ev' hev' hvalid
          have hle := hring.hw_le
          rw [hhw, length_cons] at hle
          refine hguard hg (k + 1) ev' (by simpa using hev') ?_
          have hid : st.nextReqId - (hw.length + 1) + (k + 1) = st₁.nextReqId - st₁.hw.length + k := by
            have hnext : st₁.nextReqId = st.nextReqId := hframe.nextReqId
            rw [hnext, hhw₁]
            omega
          rw [hhw, length_cons, hid]
          exact hframe.valid _ hvalid
        obtain ⟨hrest, hpolled⟩ := ih hfirst.ring h hlater
        refine ⟨hfirst.trans hrest, hpolled.inQatNum.trans hframe.inQatNum, ?_,
          hpolled.isFatal.trans hframe.isFatal, hpolled.closed.trans hframe.closed,
          hpolled.freeTimers.trans hframe.freeTimers⟩
        have hcalled : st₁.callbackCalledTimes = st.callbackCalledTimes + 1 := hframe.callbackCalledTimes
        rw [hpolled.count, hhw₁, hcalled, hhw, length_cons]
        omega

lemma pollHardware_advances (hring : Standing cfg.size st.toInFlight)
    (h : pollHardware cfg env st = .ok st') (hguard : guarded → NoWatchdog cfg env.completions st) :
    EngineAdvances cfg guarded st accepted returned st' accepted returned ∧ st'.isFatal = st.isFatal ∧
      st'.closed = st.closed := by
  unfold pollHardware at h
  split at h
  · cases h
  · rename_i st₁ hpoll
    cases h
    obtain ⟨hpolled, hframe⟩ : CodecAdvances cfg guarded { st with callbackCalledTimes := 0 }
        st.timers.timers accepted returned st₁ st₁.timers.timers accepted returned ∧ _ :=
      pollInstance_advances hring hpoll hguard
    have htimeout : CodecAdvances cfg guarded st₁ st₁.timers.timers accepted returned
        (handleTimeout cfg env.now env.clock st₁) _ accepted returned :=
      handleTimeout_advances hpolled.ring env.now env.clock
    let st₂ := handleTimeout cfg env.now env.clock st₁
    have hfree := handleFreeTimeout_advances FrameMeta.userCtx guarded htimeout.ring env.freeNow
    let s₃ := st₂.toInFlight.handleFreeTimeout env.freeNow
    have hhw : s₃.hw = st₁.hw :=
      (handleFreeTimeout_proj (·.hw) _ (fun _ _ _ => rfl) _).trans
        (handleTimeout_proj (·.hw) _ _ (fun _ _ => rfl) st₁)
    have hnum : s₃.inQatNum = st₁.inQatNum :=
      (handleFreeTimeout_proj (·.inQatNum) _ (fun _ _ _ => rfl) _).trans
        (handleTimeout_proj (·.inQatNum) _ _ (fun _ _ => rfl) st₁)
    have htimers : s₃.timers = st₂.timers := handleFreeTimeout_proj (·.timers) _ (fun _ _ _ => rfl) _
    have hcalled : st₂.callbackCalledTimes = st₁.callbackCalledTimes :=
      handleTimeout_proj (·.callbackCalledTimes) _ _ (fun _ _ => rfl) st₁
    have hlow : s₃.hw.length ≤ s₃.inQatNum - st₂.callbackCalledTimes := by
      have hle := hring.hw_le_inQatNum
      have hcount := hframe.count
      have hnum₁ := hframe.inQatNum
      simp only at hcount hnum₁
      rw [hhw, hnum, hcalled, hnum₁]
      omega
    let st₄ : EngineState :=
      { st₂ with toInFlight := { s₃ with inQatNum := s₃.inQatNum - st₂.callbackCalledTimes } }
    have hcount : CodecAdvances cfg guarded { st₂ with toInFlight := s₃ } st₂.timers.timers accepted
        returned st₄ st₄.timers.timers accepted returned :=
      codecAdvances_of_books
        (Advances.keep (hfree.ring.setInQatNum hlow (Nat.sub_le _ _)) (fun _ => SameRequest.refl _) rfl rfl)
        rfl (congrArg TimerManager.timers htimers) rfl rfl
    refine ⟨(hpolled.trans htimeout).trans (hfree.trans hcount), ?_, ?_⟩
    · exact (handleTimeout_proj (·.isFatal) _ _ (fun _ _ => rfl) st₁).trans hframe.isFatal
    · exact (handleTimeout_proj (·.closed) _ _ (fun _ _ => rfl) st₁).trans hframe.closed

lemma codecBooks_pop (st : EngineState) (ts : List (TimeoutContext Nat)) (maxNum : Nat) :
    codecBooks (popBufferedResults maxNum st).2 ts accepted
      (returned ++ (popBufferedResults maxNum st).1) = codecBooks st ts accepted returned := by
  simp only [codecBooks, popBufferedResults, append_assoc, take_append_drop]

lemma handleHaResults_advances (env : HaEnv) (results : List CodecResult) (i : Nat)
    (hring : Standing cfg.size st.toInFlight)
    (hguard : guarded → (handleHaResults cfg env results i st).1 = true →
      ∀ r ∈ st.codecResults, r.status ≠ .kTimeout) :
    EngineAdvances cfg guarded st accepted returned (handleHaResults cfg env results i st).2 accepted
      returned := by
  induction results generalizing i st with
  | nil => exact ⟨hring, Relation.ReflTransGen.refl⟩
  | cons r results ih =>
    unfold handleHaResults at hguard ⊢
    split
    · rename_i hok
      rw [if_pos hok] at hguard
      exact ih (i + 1) hring hguard
    · rename_i hok
      rw [if_neg hok] at hguard
      have hfirst : EngineAdvances cfg guarded st accepted returned (handleHa cfg env i r.status st).2
        accepted returned := by
        refine handleHa_advances hring env i r.status fun hg hfall => hguard hg ?_
        rcases handleHa_cases cfg env i r.status st with ⟨hno, -⟩ | ⟨-, errorTs, heq⟩
        · rw [hno] at hfall
          cases hfall
        · rw [heq]
          cases env.reinit <;> simp
      dsimp only at hguard ⊢
      split
      · exact hfirst
      · rename_i hgo
        refine hfirst.trans (ih (i + 1) hfirst.ring fun hg hswitch => ?_)
        rcases handleHa_cases cfg env i r.status st with ⟨-, errorTs, heq⟩ | ⟨-, errorTs, heq⟩
        · rw [heq] at hgo hswitch ⊢
          rw [heq, if_neg hgo] at hguard
          exact hguard hg hswitch
        · rw [heq] at hgo
          cases hreinit : env.reinit <;> simp [hreinit] at hgo

lemma pollHa_advances (env : PollEnv) (results : List CodecResult)
    (hring : Standing cfg.size st.toInFlight)
    (hguard : guarded → (pollHa cfg env results st).1 = true →
      ∀ r ∈ st.codecResults, r.status ≠ .kTimeout) :
    EngineAdvances cfg guarded st accepted returned (pollHa cfg env results st).2 accepted returned := by
  unfold pollHa at hguard ⊢
  dsimp only at hguard ⊢
  split
  · rename_i hbad
    rw [if_pos hbad] at hguard
    refine handleHa_advances hring env.ha 0 _ fun hg hfall => hguard hg ?_
    rcases handleHa_cases cfg env.ha 0 (cpaStatusToVesalStatusCode env.status) st with
      ⟨hno, -⟩ | ⟨-, errorTs, heq⟩
    · rw [hno] at hfall
      cases hfall
    · rw [heq]
      cases env.ha.reinit <;> simp
  · rename_i hbad
    rw [if_neg hbad] at hguard
    exact handleHaResults_advances env.ha results 0 hring hguard

/-- What `Poll` must find for its steps to be guarded: the watchdog stops no request in
flight, and no timeout is left in the list of results when it leaves the unit. -/
structure PollGuard (cfg : EngineConfig) (env : PollEnv) (maxNum : Nat) (st : EngineState) : Prop where
  watchdog : st.isFatal = false → NoWatchdog cfg env.completions st
  fallback : ∀ st₁, st.isFatal = false → pollHardware cfg env st = .ok st₁ →
    isHaEnabled cfg.opts.haPolicy = true →
    (pollHa cfg env (popBufferedResults maxNum st₁).1 (popBufferedResults maxNum st₁).2).1 = true →
    ∀ r ∈ st₁.codecResults.drop maxNum, r.status ≠ .kTimeout

lemma poll_advances (hring : Standing cfg.size st.toInFlight)
    (h : poll cfg env maxNum st = .ok (n, results, st')) (hguard : guarded → PollGuard cfg env maxNum st) :
    EngineAdvances cfg guarded st accepted returned st' accepted (returned ++ results) := by
  have hpop : ∀ (st₁ : EngineState), EngineAdvances cfg guarded st accepted returned st₁ accepted returned →
      CodecAdvances cfg guarded st st.timers.timers accepted returned (popBufferedResults maxNum st₁).2
        st₁.timers.timers accepted (returned ++ (popBufferedResults maxNum st₁).1) := by
    intro st₁ hst₁
    unfold CodecAdvances
    rw [codecBooks_pop]
    exact hst₁
  unfold poll at h
  split at h
  · cases h
    exact hpop st ⟨hring, Relation.ReflTransGen.refl⟩
  rename_i hfatal
  rw [Bool.not_eq_true] at hfatal
  split at h
  · cases h
  rename_i st₁ hhardware
  have hst₁ := hpop st₁ (pollHardware_advances hring hhardware fun hg => (hguard hg).watchdog hfatal).1
  dsimp only at h
  split at h
  · split at h
    · cases h
      exact hst₁
    · cases h
      exact hst₁
  · rename_i hha
    rw [Bool.not_eq_true, Bool.not_eq_false'] at hha
    cases h
    refine hst₁.trans (pollHa_advances env _ hst₁.ring fun hg hswitch => ?_)
    exact (hguard hg).fallback st₁ hfatal hhardware hha hswitch

lemma handleHaResults_keeps {P : EngineState → Prop} {env : HaEnv}
    (hha : ∀ i error st, P st → P (handleHa cfg env i error st).2) (results : List CodecResult) (i : Nat)
    (h : P st) : P (handleHaResults cfg env results i st).2 := by
  induction results generalizing i st with
  | nil => exact h
  | cons r results ih =>
    unfold handleHaResults
    split
    · exact ih (i + 1) h
    · dsimp only
      split
      · exact hha i r.status st h
      · exact ih (i + 1) (hha i r.status st h)

/-- What every call of `HandleHa` keeps, the part of `Poll` that watches the errors keeps. -/
lemma pollHa_keeps {P : EngineState → Prop} (hha : ∀ i error st, P st → P (handleHa cfg env.ha i error st).2)
    (results : List CodecResult) (h : P st) : P (pollHa cfg env results st).2 := by
  unfold pollHa
  dsimp only
  split
  · exact hha 0 _ st h
  · exact handleHaResults_keeps hha results 0 h

lemma poll_closed (hring : Standing cfg.size st.toInFlight)
    (h : poll cfg env maxNum st = .ok (n, results, st')) :
    st'.closed = st.closed := by
  unfold poll at h
  split at h
  · cases h
    rfl
  split at h
  · cases h
  rename_i st₁ hhardware
  obtain ⟨-, -, hclosed⟩ : CodecAdvances cfg False st st.timers.timers [] [] st₁ _ [] [] ∧ _ :=
    pollHardware_advances hring hhardware fun hfalse => hfalse.elim
  dsimp only at h
  split at h
  · split at h <;> cases h <;> exact hclosed
  · cases h
    exact pollHa_keeps (P := fun s => s.closed = st.closed)
      (fun i error s hs => (handleHa_closed env.ha i error s).trans hs) _ hclosed

def NoWatchdogPolls (cfg : EngineConfig) : List (List Completion) → EngineState → Prop
  | [], _ => True
  | evs :: polls, st => NoWatchdog cfg evs st ∧
    ∀ st₁, pollInstance cfg evs st = .ok st₁ → NoWatchdogPolls cfg polls st₁

lemma closePolls_advances {polls : List (List Completion)} (hring : Standing cfg.size st.toInFlight)
    (h : polls.foldlM (fun st evs => pollInstance cfg evs st) st = .ok st')
    (hguard : guarded → NoWatchdogPolls cfg polls st) :
    EngineAdvances cfg guarded st accepted returned st' accepted returned ∧ st'.isFatal = st.isFatal ∧
      st'.closed = st.closed ∧ st'.freeTimers = st.freeTimers := by
  induction polls generalizing st with
  | nil =>
    cases h
    exact ⟨⟨hring, Relation.ReflTransGen.refl⟩, rfl, rfl, rfl⟩
  | cons evs polls ih =>
    rw [foldlM_cons] at h
    obtain ⟨st₁, hpoll, h⟩ := Library.exists_of_bind_eq_ok h
    obtain ⟨hfirst, hframe⟩ : EngineAdvances cfg guarded st accepted returned st₁ accepted returned ∧ _ :=
      pollInstance_advances hring hpoll fun hg => (hguard hg).1
    obtain ⟨hrest, hfatal, hclosed, hfree⟩ := ih hfirst.ring h fun hg => (hguard hg).2 st₁ hpoll
    exact ⟨hfirst.trans hrest, hfatal.trans hframe.isFatal, hclosed.trans hframe.closed,
      hfree.trans hframe.freeTimers⟩

end Vesal.Proofs
