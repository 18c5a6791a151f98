import Vesal.CypherChannel
import Vesal.Proofs.InFlightLedger
import Vesal.Proofs.RingQueue

/-! # The books of the cypher channel -/

namespace Vesal.Proofs

open ChannelState List Function InFlight

variable {cfg : CypherConfig} {guarded : Prop}

lemma slotOf_mod_uint32 (cfg : CypherConfig) (reqId : Nat) :
    cfg.size.slotOf (reqId % 2 ^ 32) = cfg.size.slotOf reqId := by
  obtain ⟨k, hk, -, hle⟩ := exists_slotNum cfg.size
  have hmax := cfg.size_lt
  have hpow : 2 ^ k ∣ 2 ^ 32 := by
    refine pow_dvd_pow 2 ?_
    by_contra hgt
    have hbig : 2 ^ 33 ≤ 2 ^ k := Nat.pow_le_pow_right (by decide) (by omega)
    omega
  rw [slotOf_eq_mod, slotOf_eq_mod, hk]
  exact Nat.mod_mod_of_dvd _ hpow

def cypherOutcomes (rs : List CypherResult) : List (StatusCode × Nat) := rs.map fun r => (r.status, r.ctx)

lemma cypherOutcomes_pushResult (returned buffered : List CypherResult) (r : CypherResult) :
    cypherOutcomes (returned ++ (buffered ++ [r])) =
      cypherOutcomes (returned ++ buffered) ++ [(r.status, r.ctx)] := by
  rw [← append_assoc, cypherOutcomes, map_append]
  rfl

lemma cypherOutcomes_append (rs rs' : List CypherResult) :
    cypherOutcomes (rs ++ rs') = cypherOutcomes rs ++ cypherOutcomes rs' := map_append

/-- A channel with the timers of its requests in flight, the requests that it accepted, the
results that it returned and those in its queue. -/
structure ChannelView where
  channel : ChannelState
  timers : List (TimeoutContext Nat)
  accepted : List CypherReqArgs
  returned : List CypherResult
  buffered : List CypherResult

def ChannelView.books (v : ChannelView) : Books CypherMeta CypherCbContext CypherReqArgs :=
  ⟨v.channel.toInFlight, v.timers, v.accepted, cypherOutcomes (v.returned ++ v.buffered)⟩

structure Queued (v : ChannelView) : Prop where
  represents : Represents v.channel.reqRingQueue (v.buffered.map some ++ v.timers.map fun _ => none)
  ids : ∀ k t, v.timers[k]? = some t → (v.channel.metas t.timerArg).info.ringQueueId =
    ((v.channel.reqRingQueue.headId + v.buffered.length + k : Nat) : Int)

structure Moves (cfg : CypherConfig) (guarded : Prop) (v v' : ChannelView) : Prop where
  advances : Advances CypherMeta.userCtx cfg.size guarded v.books v'.books
  queued : Queued v'

variable {v : ChannelView} {run run' : CypherRun} {ev : CypherEvent}

variable {v' : ChannelView} {t : TimeoutContext Nat}

lemma Moves.trans {v'' : ChannelView} (h : Moves cfg guarded v v') (h' : Moves cfg guarded v' v'') :
    Moves cfg guarded v v'' :=
  ⟨h.advances.trans h'.advances, h'.queued⟩

lemma Moves.ring (h : Moves cfg guarded v v') :
    Ring cfg.size v'.channel.toInFlight v'.timers := h.advances.ring

lemma Moves.refl (hring : Ring cfg.size v.channel.toInFlight v.timers) (hq : Queued v) :
    Moves cfg guarded v v :=
  ⟨⟨hring, Relation.ReflTransGen.refl⟩, hq⟩

lemma Queued.congr (h : Queued v) {st' : ChannelState} (hqueue : st'.reqRingQueue = v.channel.reqRingQueue)
    (hinfo : ∀ t ∈ v.timers, (st'.metas t.timerArg).info = (v.channel.metas t.timerArg).info) :
    Queued { v with channel := st' } where
  represents := by
    rw [hqueue]
    exact h.represents
  ids k t ht := by
    rw [hqueue, hinfo t (mem_of_getElem? ht)]
    exact h.ids k t ht

variable {ts : List (TimeoutContext Nat)} {β : Type}

lemma Queued.push (h : Queued v) (hts : v.timers = t :: ts) {st' : ChannelState} {r : CypherResult}
    (hqueue : st'.reqRingQueue =
      v.channel.reqRingQueue.pushResult r (v.channel.metas t.timerArg).info.ringQueueId)
    (hinfo : ∀ slot, (st'.metas slot).info = (v.channel.metas slot).info) :
    Queued { v with channel := st', timers := ts, buffered := v.buffered ++ [r] } := by
  have hid := h.ids 0 t (by rw [hts]; rfl)
  rw [Nat.add_zero] at hid
  rw [hid] at hqueue
  have hpush := h.represents.pushResult (k := v.buffered.length) (by simp [hts]) r
  have hset : (v.buffered.map some ++ v.timers.map fun _ => none).set v.buffered.length (some r) =
      (v.buffered ++ [r]).map some ++ ts.map fun _ => none := by
    rw [hts, set_append_right _ _ (by simp)]
    simp
  rw [hset, ← hqueue] at hpush
  refine ⟨hpush, fun k t' ht' => ?_⟩
  have hlater := h.ids (k + 1) t' (by rw [hts]; exact ht')
  rw [hinfo, hlater, hqueue, length_append, length_singleton]
  change ((v.channel.reqRingQueue.headId + v.buffered.length + (k + 1) : Nat) : Int) =
    ((v.channel.reqRingQueue.headId + (v.buffered.length + 1) + k : Nat) : Int)
  congr 1
  omega

lemma Queued.accept (h : Queued v) (hroom : v.channel.reqRingQueue.isFull = false) {st' : ChannelState}
    (hqueue : st'.reqRingQueue = v.channel.reqRingQueue.newReq.2)
    (hid : (st'.metas t.timerArg).info.ringQueueId = v.channel.reqRingQueue.newReq.1)
    (hinfo : ∀ t' ∈ v.timers, (st'.metas t'.timerArg).info = (v.channel.metas t'.timerArg).info)
    (accepted : List CypherReqArgs) :
    Queued { v with channel := st', timers := v.timers ++ [t], accepted := accepted } := by
  obtain ⟨hnew, hrep⟩ := h.represents.newReq hroom
  rw [hnew] at hqueue hid
  refine ⟨?_, fun k t' ht' => ?_⟩
  · rw [hqueue, map_append, ← append_assoc]
    exact hrep
  · have hhead : st'.reqRingQueue.headId = v.channel.reqRingQueue.headId := by rw [hqueue]
    rw [hhead]
    rcases getElem?_append_singleton ht' with hold | ⟨rfl, rfl⟩
    · rw [hinfo t' (mem_of_getElem? hold)]
      exact h.ids k t' hold
    · rw [hid]
      simp only [length_append, length_map]
      congr 1
      omega

lemma ready_waiting (buffered : List CypherResult) (ts : List (TimeoutContext Nat)) :
    ready (buffered.map some ++ ts.map fun _ => none) = buffered := by
  induction buffered with
  | nil =>
    cases ts with
    | nil => rfl
    | cons t ts => exact ready_none _
  | cons r buffered ih =>
    rw [map_cons, cons_append, ready_some, ih]

lemma Queued.pop (h : Queued v) (size : Int) :
    (v.channel.reqRingQueue.popResults size).1 = v.buffered.take size.toNat ∧
      Queued { v with
        channel := { v.channel with reqRingQueue := (v.channel.reqRingQueue.popResults size).2 }
        buffered := v.buffered.drop size.toNat } := by
  obtain ⟨queue, hpop, hrep, hhead⟩ := h.represents.popResults size
  rw [ready_waiting] at hpop hrep hhead
  rw [hpop]
  refine ⟨rfl, ?_, fun k t ht => ?_⟩
  · have hdrop : (v.buffered.map some ++ v.timers.map fun _ => none).drop (v.buffered.take size.toNat).length =
        (v.buffered.drop size.toNat).map some ++ v.timers.map fun _ => none := by
      rw [length_take, drop_append_of_le_length (by simp), ← map_drop]
      congr 2
      rcases Nat.le_total size.toNat v.buffered.length with hle | hge
      · rw [Nat.min_eq_left hle]
      · rw [Nat.min_eq_right hge, drop_length, drop_eq_nil_of_le hge]
    rw [hdrop] at hrep
    exact hrep
  · refine (h.ids k t ht).trans ?_
    rw [hhead, length_take, length_drop]
    congr 1
    omega

lemma moves_of_books {b' : Books CypherMeta CypherCbContext CypherReqArgs}
    (h : Advances CypherMeta.userCtx cfg.size guarded v.books b') (hinFlight : v'.channel.toInFlight = b'.inFlight)
    (hts : v'.timers = b'.timers) (haccepted : v'.accepted = b'.accepted)
    (hdone : cypherOutcomes (v'.returned ++ v'.buffered) = b'.done) (hq : Queued v') :
    Moves cfg guarded v v' := by
  have hb' : v'.books = b' := by
    rw [ChannelView.books, hinFlight, hts, haccepted, hdone]
  rw [← hb'] at h
  exact ⟨h, hq⟩

lemma onTimeout_moves (hring : Ring cfg.size v.channel.toInFlight v.timers) (hq : Queued v)
    (hts : v.timers = t :: ts) (env : TimeoutEnv) :
    Moves cfg guarded v
      { v with
        channel := onTimeout cfg env t.timerArg v.channel
        timers := ts
        buffered := v.buffered ++ [⟨.kTimeout, (v.channel.metas t.timerArg).info.userCtx⟩] } := by
  have hadv := expire_advances CypherMeta.userCtx guarded (b := v.books) hring hts (replacementCb env.pIv)
    env.clock
  refine moves_of_books hadv rfl rfl rfl ?_ (hq.push hts rfl fun slot => ?_)
  · exact cypherOutcomes_pushResult _ _ _
  · exact (sameRequest_intercept cfg.size (replacementCb env.pIv) t.timerArg slot v.channel.toInFlight).info

lemma foldl_onTimeout_moves (env : Nat → TimeoutEnv) (fired ts : List (TimeoutContext Nat))
    (hring : Ring cfg.size v.channel.toInFlight v.timers) (hq : Queued v) (hts : v.timers = fired ++ ts) :
    ∃ buffered, Moves cfg guarded v
      { v with
        channel := fired.foldl (fun st t => onTimeout cfg (env t.timerArg) t.timerArg st) v.channel
        timers := ts
        buffered := buffered } := by
  induction fired generalizing v with
  | nil =>
    refine ⟨v.buffered, ?_⟩
    have hsame : v.timers = ts := hts
    subst hsame
    exact Moves.refl hring hq
  | cons t fired ih =>
    have hfirst : Moves cfg guarded v _ := onTimeout_moves hring hq hts (env t.timerArg)
    obtain ⟨buffered, hrest⟩ := ih hfirst.ring hfirst.queued rfl
    exact ⟨buffered, hfirst.trans hrest⟩

def viewOf (st : ChannelState) (accepted : List CypherReqArgs) (returned buffered : List CypherResult) :
    ChannelView :=
  ⟨st, st.timers.timers, accepted, returned, buffered⟩

variable {st : ChannelState} {accepted : List CypherReqArgs} {returned buffered : List CypherResult}

lemma cypherHandleTimeout_proj (p : ChannelState → β) (now : Nat) (env : Nat → TimeoutEnv)
    (hp : ∀ env slot st, p (onTimeout cfg env slot st) = p st) (st : ChannelState) :
    p (handleTimeout cfg now env st) =
      p (st.onInFlight fun s => { s with timers := s.timers.handleTimeout now }) :=
  foldl_proj p (fun st (t : TimeoutContext Nat) => hp (env t.timerArg) t.timerArg st) _ _

lemma cypherHandleTimeout_moves (hring : Standing cfg.size st.toInFlight)
    (hq : Queued (viewOf st accepted returned buffered)) (now : Nat) (env : Nat → TimeoutEnv) :
    ∃ buffered', Moves cfg guarded (viewOf st accepted returned buffered)
      (viewOf (handleTimeout cfg now env st) accepted returned buffered') := by
  let st' := st.onInFlight fun s => { s with timers := s.timers.handleTimeout now }
  let v' : ChannelView := ⟨st', st.timers.timers, accepted, returned, buffered⟩
  have hring' : Ring cfg.size st'.toInFlight st.timers.timers := hring.congr rfl rfl rfl rfl rfl rfl rfl
  have hq' : Queued v' := hq.congr rfl fun _ _ => rfl
  have hkeep : Moves cfg guarded (viewOf st accepted returned buffered) v' :=
    ⟨Advances.keep hring' (fun _ => SameRequest.refl _) rfl rfl, hq'⟩
  have htimers : (handleTimeout cfg now env st).timers = st.timers.handleTimeout now :=
    cypherHandleTimeout_proj (·.timers) now env (fun _ _ _ => rfl) st
  obtain ⟨buffered', hmoves⟩ := foldl_onTimeout_moves env _ _ hring' hq'
    (st.timers.due_append_handleTimeout now).symm
  refine ⟨buffered', hkeep.trans ?_⟩
  unfold viewOf
  rw [htimers]
  exact hmoves

lemma fillCypherBuffers_fills {dev : DmaUnit} {args : CypherReqArgs} {srcBuf dstBuf srcBuf' dstBuf' : QatBuf}
    {pool pool' : PoolState}
    (h : fillCypherBuffers dev args srcBuf dstBuf pool = .ok (true, srcBuf', dstBuf', pool')) :
    ∃ pool₁, fillSrc dev args.src 0 0 srcBuf pool = .ok (true, srcBuf', pool₁) ∧
      fillDst dev (args.src.extents ++ [args.dst.extent]) args.dst 0 0 dstBuf pool₁ = (true, dstBuf', pool') := by
  unfold fillCypherBuffers at h
  obtain ⟨⟨fillSrcR, srcBuf₁, pool₁⟩, hsrc, h⟩ := Library.exists_of_bind_eq_ok h
  rcases hdst : fillDst dev (args.src.extents ++ [args.dst.extent]) args.dst 0 0 dstBuf pool₁ with
    ⟨fillDstR, dstBuf₁, pool₂⟩
  simp only [hdst] at h
  cases fillSrcR <;> cases fillDstR <;> cases h
  exact ⟨pool₁, hsrc, hdst⟩

structure ContextOf (reqId : Nat) (srcBuf dstBuf : QatBuf) (cb cb' : CypherCbContext) : Prop where
  channel : cb'.channel = true
  reqId : cb'.reqId = reqId
  pIv : cb'.op.pIv = cb.op.pIv
  srcBuf : cb'.srcBuf = some srcBuf
  dstBuf : cb'.dstBuf = some dstBuf

lemma newCypherCallbackCtx_cb {p : CypherSessionPair} {reqId : Nat} {args : CypherReqArgs}
    {srcBuf dstBuf : QatBuf} {cb cb' : CypherCbContext} {mem mem' : Library.Memory}
    (h : newCypherCallbackCtx p reqId args srcBuf dstBuf cb mem = .ok (cb', mem')) :
    ContextOf reqId srcBuf dstBuf cb cb' := by
  unfold newCypherCallbackCtx at h
  split at h
  · cases h
  · split at h
    · cases h
      exact ⟨rfl, rfl, rfl, rfl, rfl⟩
    · cases h
      exact ⟨rfl, rfl, rfl, rfl, rfl⟩
    · cases h

lemma stores_cypherRequest (reqId : Nat) (id : Int) (len : Nat) (args : CypherReqArgs)
    (m : RequestMeta CypherMeta) :
    Stores CypherMeta.userCtx (ChannelState.storeRequest reqId id len args m) args where
  toStoresMemory := ⟨rfl, (storesMemory_storeMemory m args).block, rfl⟩
  ctx := rfl

/-- What `SubmitAsync` computes for a request: the session, the two buffers once they are filled
and those left in the cache, the pool then, and the context with the memory after the IV is
copied. -/
structure CypherSubmission where
  session : CypherSessionPair
  srcBuf : QatBuf
  dstBuf : QatBuf
  bufs : List QatBuf
  pool : PoolState
  cb : CypherCbContext
  mem : Library.Memory

structure CypherSubmission.Accepted (sub : CypherSubmission) (cfg : CypherConfig) (env : SubmitEnv) (args : CypherReqArgs)
    (st st' : ChannelState) : Prop where
  notFull : isChannelFull cfg st = false
  room : st.reqRingQueue.isFull = false
  session : sessionOf args st = some sub.session
  valid : validateArgs args sub.session.algorithm = true
  filled : ∃ srcBuf dstBuf, st.bufs = srcBuf :: dstBuf :: sub.bufs ∧
    fillCypherBuffers cfg.dev args srcBuf dstBuf st.pool = .ok (true, sub.srcBuf, sub.dstBuf, sub.pool)
  context : newCypherCallbackCtx sub.session st.nextReqId args sub.srcBuf sub.dstBuf
    (st.cbs (st.cbPool (cfg.size.slotOf st.nextReqId))) sub.pool.mem = .ok (sub.cb, sub.mem)
  driver : cpaStatusToVesalStatusCode env.driver = .kOk
  state : ∃ len, st' = acceptRequest env.now (cfg.size.slotOf st.nextReqId)
    (st.cbPool (cfg.size.slotOf st.nextReqId)) len args (st.onInFlight fun s =>
      { s.setCb (st.cbPool (cfg.size.slotOf st.nextReqId)) sub.cb with
        bufs := sub.bufs, pool := { sub.pool with mem := sub.mem } })

lemma submitAsync_cases {env : SubmitEnv} {args : CypherReqArgs} {status : StatusCode} {st' : ChannelState}
    (h : submitAsync cfg env args st = .ok (status, st')) :
    (status ≠ .kOk ∧ ∃ bufs pool, st' = (st.onInFlight fun s => { s with bufs := bufs, pool := pool })) ∨
    (status ≠ .kOk ∧ isChannelFull cfg st = false ∧
      let c := st.cbPool (cfg.size.slotOf st.nextReqId)
      ∃ cb bufs pool, cb.op.pIv = (st.cbs c).op.pIv ∧
        st' = (st.onInFlight fun s => { s.setCb c cb with bufs := bufs, pool := pool }).onInFlight
          (·.cleanUpReqData cfg.dev none (some c))) ∨
    (status = .kOk ∧ ∃ sub : CypherSubmission, sub.Accepted cfg env args st st') := by
  have hsame : st = st.onInFlight fun s => { s with bufs := st.bufs, pool := st.pool } := rfl
  unfold submitAsync at h
  dsimp only at h
  split at h
  · cases h
    exact Or.inl ⟨by decide, st.bufs, st.pool, hsame⟩
  rename_i hfull
  simp only [Bool.or_eq_true, not_or, Bool.not_eq_true] at hfull
  split at h
  · cases h
  rename_i p hsession
  split at h
  · cases h
    exact Or.inl ⟨by decide, st.bufs, st.pool, hsame⟩
  rename_i hvalid
  split at h
  · rename_i srcBuf dstBuf bufs hbufs
    split at h
    · cases h
    · cases h
      exact Or.inl ⟨by decide, _, _, rfl⟩
    · rename_i srcBuf' dstBuf' pool hfill
      split at h
      · cases h
      rename_i cb mem hctx
      split at h
      · rename_i hdriver
        obtain ⟨rfl, rfl⟩ := h
        exact Or.inr (Or.inl ⟨hdriver, hfull.1, cb, bufs, { pool with mem := mem },
          (newCypherCallbackCtx_cb hctx).pIv, rfl⟩)
      · rename_i hdriver
        split at h
        · cases h
        simp only [Except.ok.injEq, Prod.mk.injEq] at h
        obtain ⟨rfl, hst'⟩ := h
        exact Or.inr (Or.inr ⟨not_not.mp hdriver, ⟨p, srcBuf', dstBuf', bufs, pool, cb, mem⟩, hfull.1, hfull.2,
          hsession, by simpa using hvalid, ⟨srcBuf, dstBuf, hbufs, hfill⟩, hctx, not_not.mp hdriver, ⟨_, hst'.symm⟩⟩)
  · cases h
    exact Or.inl ⟨by decide, st.bufs, st.pool, hsame⟩

lemma exists_cypherSubmission {env : SubmitEnv} {args : CypherReqArgs} {st' : ChannelState}
    (h : submitAsync cfg env args st = .ok (.kOk, st')) :
    ∃ sub : CypherSubmission, sub.Accepted cfg env args st st' := by
  rcases submitAsync_cases h with ⟨hstatus, -⟩ | ⟨hstatus, -⟩ | ⟨-, hsub⟩
  · exact absurd rfl hstatus
  · exact absurd rfl hstatus
  · exact hsub

/-- What `SubmitAsync` must find for its steps to be guarded: where there is room, a session takes the
request, the first two buffers can be filled with it and the driver accepts it, no free timer points to
its slot. -/
def CypherSubmitGuard (cfg : CypherConfig) (env : SubmitEnv) (args : CypherReqArgs) (st : ChannelState) : Prop :=
  isChannelFull cfg st = false → st.reqRingQueue.isFull = false →
    (∃ p, sessionOf args st = some p ∧ validateArgs args p.algorithm = true) →
    (∃ srcBuf dstBuf bufs filled, st.bufs = srcBuf :: dstBuf :: bufs ∧
      fillCypherBuffers cfg.dev args srcBuf dstBuf st.pool = .ok (true, filled)) →
    cpaStatusToVesalStatusCode env.driver = .kOk →
    ∀ t ∈ st.freeTimers.timers, t.timerArg.slot ≠ cfg.size.slotOf st.nextReqId

section

variable (hring : Standing cfg.size st.toInFlight)
include hring

lemma acceptRequest_moves (hq : Queued (viewOf st accepted returned buffered))
    (hroom : st.inQatNum < cfg.size.maxInQatSize) (hqueue : st.reqRingQueue.isFull = false) {slot : Nat}
    (hslot : slot = cfg.size.slotOf st.nextReqId) (howner : (st.cbs (st.cbPool slot)).channel = true)
    (hid : (st.cbs (st.cbPool slot)).reqId = st.nextReqId)
    (hguard : guarded → ∀ t ∈ st.freeTimers.timers, t.timerArg.slot ≠ slot) (now len : Nat) (args : CypherReqArgs) :
    Moves cfg guarded (viewOf st accepted returned buffered)
      (viewOf (acceptRequest now slot (st.cbPool slot) len args st) (accepted ++ [args]) returned
        buffered) := by
  let m := storeRequest st.nextReqId st.reqRingQueue.newReq.1 len args (st.metas slot)
  have hm : m.valid = false := by
    have hvalid := hring.next_invalid hroom
    rw [← hslot] at hvalid
    exact hvalid
  have hmeta : (st.toInFlight.setMeta slot m).metas slot = m := update_self _ _ _
  have hstores : Stores CypherMeta.userCtx ((st.toInFlight.setMeta slot m).metas slot) args := by
    rw [hmeta]
    exact stores_cypherRequest _ _ _ _ _
  have hwrite := write_advances CypherMeta.userCtx guarded
    (b := (viewOf st accepted returned buffered).books) hring hroom hslot hm hguard
  have haccept := accept_advances CypherMeta.userCtx guarded (r := args) hwrite.ring hroom hslot howner hid
    (congrArg RequestMeta.reqId hmeta) hstores now
  have hinfo : ∀ a, ((acceptRequest now slot (st.cbPool slot) len args st).metas a).info =
      ((st.toInFlight.setMeta slot m).metas a).info := by
    intro a
    by_cases heq : a = slot
    · subst heq
      simp [acceptRequest, tagInFlight, submit, setMeta, m]
    · simp [acceptRequest, tagInFlight, submit, setMeta, heq]
  refine moves_of_books (hwrite.trans haccept) rfl rfl rfl rfl
    (hq.accept hqueue rfl ?_ (fun t ht => ?_) _)
  · refine (congrArg CypherMeta.ringQueueId (hinfo slot)).trans ?_
    rw [hmeta]
    rfl
  · have hne : t.timerArg ≠ slot := hslot ▸ hring.slot_free hroom t ht
    refine (hinfo t.timerArg).trans ?_
    exact congrArg RequestMeta.info (update_of_ne hne _ _)

lemma resetCb_moves (hq : Queued (viewOf st accepted returned buffered)) {c : Nat} (hc : c ∉ st.hw) :
    Moves cfg guarded (viewOf st accepted returned buffered)
      (viewOf (st.onInFlight (·.resetCb cfg.dev c)) accepted returned buffered) := by
  have hadv := resetCb_advances CypherMeta.userCtx guarded
    (b := (viewOf st accepted returned buffered).books) hring hc cfg.dev
  have htimers := resetCb_proj (·.timers.timers) (fun _ _ _ _ => rfl) cfg.dev c st.toInFlight
  have hmetas := resetCb_proj (·.metas) (fun _ _ _ _ => rfl) cfg.dev c st.toInFlight
  simp only [viewOf, onInFlight, htimers]
  refine ⟨hadv, hq.congr rfl fun t _ => ?_⟩
  simp only [hmetas]
  rfl

lemma ring_room (hfull : isChannelFull cfg st = false) :
    st.inQatNum < cfg.size.maxInQatSize := by
  have hne : st.inQatNum ≠ cfg.size.maxInQatSize := by simpa [isChannelFull] using hfull
  exact lt_of_le_of_ne hring.inQatNum_le hne

lemma setCb_moves (hq : Queued (viewOf st accepted returned buffered)) {c : Nat} (hc : c ∉ st.hw)
    (cb : CypherCbContext) (bufs : List QatBuf) (pool : PoolState) :
    Moves cfg guarded (viewOf st accepted returned buffered)
      (viewOf (st.onInFlight fun s => { s.setCb c cb with bufs := bufs, pool := pool }) accepted returned
        buffered) := by
  have hring₁ : Ring cfg.size (st.onInFlight fun s => { s.setCb c cb with bufs := bufs, pool := pool }).toInFlight
      st.timers.timers := (hring.setCb hc cb).congr rfl rfl rfl rfl rfl rfl rfl
  exact ⟨Advances.keep hring₁ (fun _ => SameRequest.refl _) rfl rfl, hq.congr rfl fun _ _ => rfl⟩

lemma submitAsync_moves (hq : Queued (viewOf st accepted returned buffered)) {env : SubmitEnv}
    {args : CypherReqArgs} {status : StatusCode} {st' : ChannelState}
    (h : submitAsync cfg env args st = .ok (status, st')) (hguard : guarded → CypherSubmitGuard cfg env args st) :
    Moves cfg guarded (viewOf st accepted returned buffered)
      (viewOf st' (if status = .kOk then accepted ++ [args] else accepted) returned buffered) := by
  rcases submitAsync_cases h with ⟨hstatus, bufs, pool, rfl⟩ | ⟨hstatus, hfull, cb, bufs, pool, -, rfl⟩ |
    ⟨rfl, sub, hsub⟩
  · rw [if_neg hstatus]
    exact ⟨Advances.keep (hring.congr rfl rfl rfl rfl rfl rfl rfl) (fun _ => SameRequest.refl _) rfl rfl,
      hq.congr rfl fun _ _ => rfl⟩
  · rw [if_neg hstatus]
    have hfree := hring.next_cb_free (ring_room hring hfull)
    have hset : Moves cfg guarded (viewOf st accepted returned buffered) _ :=
      setCb_moves hring hq hfree cb bufs pool
    exact hset.trans (resetCb_moves hset.ring hset.queued hfree)
  · rw [if_pos rfl]
    have hroom := ring_room hring hsub.notFull
    have hset : Moves cfg guarded (viewOf st accepted returned buffered) _ :=
      setCb_moves hring hq (hring.next_cb_free hroom) sub.cb sub.bufs { sub.pool with mem := sub.mem }
    have hctx := newCypherCallbackCtx_cb hsub.context
    let c := st.cbPool (cfg.size.slotOf st.nextReqId)
    have hcb : Function.update st.cbs c sub.cb c = sub.cb := update_self _ _ _
    obtain ⟨len, rfl⟩ := hsub.state
    refine hset.trans (acceptRequest_moves hset.ring hset.queued hroom hsub.room rfl ?_ ?_ ?_ env.now len args)
    · exact (congrArg CypherCbContext.channel hcb).trans hctx.channel
    · exact (congrArg CypherCbContext.reqId hcb).trans hctx.reqId
    · obtain ⟨srcBuf, dstBuf, hbufs, hfill⟩ := hsub.filled
      exact fun hg => hguard hg hsub.notFull hsub.room ⟨_, hsub.session, hsub.valid⟩
        ⟨srcBuf, dstBuf, sub.bufs, _, hbufs, hfill⟩ hsub.driver

end

lemma cpaStatusToVesalStatusCode_ne_timeout (status : CpaStatus) :
    cpaStatusToVesalStatusCode status ≠ .kTimeout := by
  cases status <;> simp [cpaStatusToVesalStatusCode]

lemma cyCallback_cases {ev : Completion} {c : Nat} {st' : ChannelState} (h : cyCallback cfg ev c st = .ok st') :
    let slot := cfg.size.slotOf (st.cbs c).reqId
    ((st.metas slot).valid = false ∧ ∃ pool, st' = (st.onInFlight fun s =>
      ({ s with inQatNum := s.inQatNum - 1, pool := pool } : InFlight CypherMeta CypherCbContext).cleanUpReqData
        cfg.dev none (some c))) ∨
    ((st.metas slot).valid = true ∧ ∃ pool,
      st' = (st.pushResult ⟨cpaStatusToVesalStatusCode ev.status, (st.metas slot).info.userCtx⟩
        (st.metas slot).info.ringQueueId).onInFlight fun s =>
          ({ s with inQatNum := s.inQatNum - 1, pool := pool } : InFlight CypherMeta CypherCbContext).cleanUpReqData
            cfg.dev (some slot) (some c)) := by
  unfold cyCallback at h
  dsimp only at h
  split at h
  · cases h
  split at h
  · rename_i hinvalid
    cases h
    exact Or.inl ⟨by simpa [onInFlight] using hinvalid, _, rfl⟩
  · rename_i hvalid
    split at h
    · cases h
    · cases h
      exact Or.inr ⟨by simpa [onInFlight] using hvalid, _, rfl⟩

structure CyPolled (st st' : ChannelState) : Prop where
  freeTimers : st'.freeTimers = st.freeTimers
  closed : st'.closed = st.closed

lemma CyPolled.trans {st st₁ st₂ : ChannelState} (h : CyPolled st st₁) (h' : CyPolled st₁ st₂) :
    CyPolled st st₂ :=
  ⟨h'.freeTimers.trans h.freeTimers, h'.closed.trans h.closed⟩

lemma cyCallback_frame {ev : Completion} {c : Nat} {st' : ChannelState} (h : cyCallback cfg ev c st = .ok st') :
    CyPolled st st' := by
  have hclean : ∀ (s : InFlight CypherMeta CypherCbContext) slot,
      (s.cleanUpReqData cfg.dev slot (some c)).freeTimers = s.freeTimers := by
    intro s slot
    obtain ⟨metas, timers, bufs, pool, heq, -⟩ := cleanUpReqData_frame cfg.dev slot c s
    rw [heq]
    rfl
  rcases cyCallback_cases h with ⟨-, pool, rfl⟩ | ⟨-, pool, rfl⟩
  · exact ⟨hclean _ _, rfl⟩
  · exact ⟨hclean _ _, rfl⟩

lemma cyCallback_moves {ev : Completion} {c : Nat} {hw : List Nat} {st' : ChannelState}
    (hring : Standing cfg.size st.toInFlight)
    (hq : Queued (viewOf st accepted returned buffered)) (hhw : st.hw = c :: hw)
    (h : cyCallback cfg ev c (st.onInFlight fun s => { s with hw := hw }) = .ok st') :
    ∃ buffered', Moves cfg guarded (viewOf st accepted returned buffered)
      (viewOf st' accepted returned buffered') := by
  have hle := hring.hw_le_inQatNum
  rw [hhw, length_cons] at hle
  rcases cyCallback_cases h with ⟨hinvalid, pool, hst'⟩ | ⟨hvalid, pool, hst'⟩
  · have hlate := late_advances CypherMeta.userCtx guarded pool
      (b := (viewOf st accepted returned buffered).books) hring hhw (n := st.inQatNum - 1) (by omega)
      (Nat.sub_le _ _) cfg.dev hinvalid
    let s' := popped st.toInFlight hw (st.inQatNum - 1) pool
    have hinFlight : st'.toInFlight = s'.cleanUpReqData cfg.dev none (some c) := by
      rw [hst']
      rfl
    have htimers : st'.timers.timers = st.timers.timers := by
      rw [hinFlight]
      exact resetCb_proj (·.timers.timers) (fun _ _ _ _ => rfl) cfg.dev c s'
    refine ⟨buffered, moves_of_books hlate hinFlight htimers rfl rfl ?_⟩
    unfold viewOf
    rw [htimers]
    refine hq.congr (by rw [hst']; rfl) fun t _ => ?_
    rw [hinFlight]
    exact (sameRequest_cleanUpReqData cfg.dev none c t.timerArg s').info
  · obtain ⟨t, ts, hts, hlen, hslot⟩ := hring.head_valid hhw hvalid
    have hcomplete := complete_advances CypherMeta.userCtx guarded pool
      (b := (viewOf st accepted returned buffered).books) hring hts hts hhw hlen (n := st.inQatNum - 1) (by omega)
      (Nat.sub_le _ _) cfg.dev (cpaStatusToVesalStatusCode ev.status)
      fun _ => cpaStatusToVesalStatusCode_ne_timeout ev.status
    let s' := popped st.toInFlight hw (st.inQatNum - 1) pool
    have hinFlight : st'.toInFlight = s'.cleanUpReqData cfg.dev (some t.timerArg) (some c) := by
      rw [hst', hslot]
      rfl
    have htimers : st'.timers.timers = ts := by
      rw [hinFlight]
      exact hcomplete.2
    refine ⟨buffered ++ [⟨cpaStatusToVesalStatusCode ev.status, (st.metas t.timerArg).info.userCtx⟩],
      moves_of_books hcomplete.1 hinFlight htimers rfl (cypherOutcomes_pushResult _ _ _) ?_⟩
    unfold viewOf
    rw [htimers]
    refine hq.push hts (by rw [hst', hslot]; rfl) fun slot => ?_
    rw [hinFlight]
    exact (sameRequest_cleanUpReqData cfg.dev (some t.timerArg) c slot s').info

lemma cyPollInstance_moves {evs : List Completion} {st' : ChannelState}
    (hring : Standing cfg.size st.toInFlight)
    (hq : Queued (viewOf st accepted returned buffered)) (h : cyPollInstance cfg evs st = .ok st') :
    (∃ buffered', Moves cfg guarded (viewOf st accepted returned buffered)
      (viewOf st' accepted returned buffered')) ∧ CyPolled st st' := by
  induction evs generalizing st buffered with
  | nil =>
    cases h
    exact ⟨⟨buffered, Moves.refl hring hq⟩, rfl, rfl⟩
  | cons ev evs ih =>
    unfold cyPollInstance at h
    split at h
    · cases h
      exact ⟨⟨buffered, Moves.refl hring hq⟩, rfl, rfl⟩
    · rename_i c hw hhw
      split at h
      · cases h
      · rename_i st₁ hcallback
        obtain ⟨buffered₁, hfirst⟩ : ∃ buffered₁, Moves cfg guarded (viewOf st accepted returned buffered)
          (viewOf st₁ accepted returned buffered₁) := cyCallback_moves hring hq hhw hcallback
        obtain ⟨⟨buffered', hrest⟩, hframe⟩ := ih hfirst.ring hfirst.queued h
        have hframe₁ : CyPolled st st₁ :=
          ⟨(cyCallback_frame hcallback).freeTimers, (cyCallback_frame hcallback).closed⟩
        exact ⟨⟨buffered', hfirst.trans hrest⟩, hframe₁.trans hframe⟩

lemma uninitPolls_moves (guarded : Prop) {polls : List (List Completion)} {st' : ChannelState}
    (hring : Standing cfg.size st.toInFlight)
    (hq : Queued (viewOf st accepted returned buffered))
    (h : polls.foldlM (fun st evs => cyPollInstance cfg evs st) st = .ok st') :
    (∃ buffered', Moves cfg guarded (viewOf st accepted returned buffered)
      (viewOf st' accepted returned buffered')) ∧ CyPolled st st' := by
  induction polls generalizing st buffered with
  | nil =>
    cases h
    exact ⟨⟨buffered, Moves.refl hring hq⟩, rfl, rfl⟩
  | cons evs polls ih =>
    rw [foldlM_cons] at h
    obtain ⟨st₁, hpoll, h⟩ := Library.exists_of_bind_eq_ok h
    obtain ⟨⟨buffered₁, hfirst⟩, hframe₁⟩ : (∃ buffered₁, Moves cfg guarded
        (viewOf st accepted returned buffered) (viewOf st₁ accepted returned buffered₁)) ∧ CyPolled st st₁ :=
      cyPollInstance_moves hring hq hpoll
    obtain ⟨⟨buffered', hrest⟩, hframe⟩ := ih hfirst.ring hfirst.queued h
    exact ⟨⟨buffered', hfirst.trans hrest⟩, hframe₁.trans hframe⟩

lemma cypherHandleFreeTimeout_moves (hring : Standing cfg.size st.toInFlight)
    (hq : Queued (viewOf st accepted returned buffered)) (now : Nat) :
    Moves cfg guarded (viewOf st accepted returned buffered)
      (viewOf (st.onInFlight (·.handleFreeTimeout now)) accepted returned buffered) := by
  have hadv := handleFreeTimeout_advances CypherMeta.userCtx guarded
    (b := (viewOf st accepted returned buffered).books) hring now
  have htimers : (st.handleFreeTimeout now).timers = st.timers :=
    handleFreeTimeout_proj (·.timers) now (fun _ _ _ => rfl) _
  have hmetas : (st.handleFreeTimeout now).metas = st.metas :=
    handleFreeTimeout_proj (·.metas) now (fun _ _ _ => rfl) _
  refine moves_of_books hadv rfl (congrArg TimerManager.timers htimers) rfl rfl ?_
  simp only [viewOf, onInFlight, htimers]
  refine hq.congr rfl fun t _ => ?_
  simp only [hmetas]
  rfl

lemma popResults_moves (hring : Standing cfg.size st.toInFlight)
    (hq : Queued (viewOf st accepted returned buffered)) (size : Int) :
    Moves cfg guarded (viewOf st accepted returned buffered)
      (viewOf { st with reqRingQueue := (st.reqRingQueue.popResults size).2 } accepted
        (returned ++ (st.reqRingQueue.popResults size).1) (buffered.drop size.toNat)) := by
  obtain ⟨hresults, hqueued⟩ := hq.pop size
  have hall : returned ++ (st.reqRingQueue.popResults size).1 ++ buffered.drop size.toNat =
      returned ++ buffered := by
    rw [show (st.reqRingQueue.popResults size).1 = buffered.take size.toNat from hresults, append_assoc,
      take_append_drop]
  refine moves_of_books ⟨hring, Relation.ReflTransGen.refl⟩ rfl rfl rfl (congrArg cypherOutcomes hall) ?_
  exact ⟨hqueued.represents, hqueued.ids⟩

def afterTimeouts (cfg : CypherConfig) (env : PollEnv) (st : ChannelState) : ChannelState :=
  (handleTimeout cfg env.now env.timeouts st).onInFlight (·.handleFreeTimeout env.freeNow)

lemma poll_cases {env : PollEnv} {maxNum : Nat} {n : Int} {results called : List CypherResult}
    {st' : ChannelState} (h : ChannelState.poll cfg env maxNum st = .ok (n, results, called, st')) :
    ∃ st₁, cyPollInstance cfg env.completions st = .ok st₁ ∧
      (((env.status ≠ .success ∧ env.status ≠ .retry) ∧ results = [] ∧
        called = (if cfg.userCb then (range maxNum).map env.array else []) ∧ st' = st₁) ∨
      ((env.status = .success ∨ env.status = .retry) ∧
        let popped := (afterTimeouts cfg env st₁).reqRingQueue.popResults (Int.bmod maxNum (2 ^ 32))
        results = popped.1 ∧ called = (if cfg.userCb then results else []) ∧
        st' = { afterTimeouts cfg env st₁ with reqRingQueue := popped.2 })) := by
  unfold ChannelState.poll at h
  split at h
  · cases h
  rename_i st₁ hpoll
  refine ⟨st₁, hpoll, ?_⟩
  split at h
  · rename_i hfail
    cases h
    exact Or.inl ⟨hfail, rfl, rfl, rfl⟩
  · rename_i hstatus
    dsimp only at h
    split at h
    · cases h
    · cases h
      exact Or.inr ⟨by tauto, rfl, rfl, rfl⟩

lemma cypherPoll_moves (guarded : Prop) {env : PollEnv} {maxNum : Nat} {n : Int}
    {results called : List CypherResult} {st' : ChannelState} (hring : Standing cfg.size st.toInFlight)
    (hq : Queued (viewOf st accepted returned buffered))
    (h : ChannelState.poll cfg env maxNum st = .ok (n, results, called, st')) :
    (∃ buffered', Moves cfg guarded (viewOf st accepted returned buffered)
      (viewOf st' accepted (returned ++ results) buffered')) ∧ st'.closed = st.closed := by
  obtain ⟨st₁, hpoll, hcase⟩ := poll_cases h
  obtain ⟨⟨buffered₁, hpolled⟩, hframe⟩ : (∃ buffered₁, Moves cfg guarded
      (viewOf st accepted returned buffered) (viewOf st₁ accepted returned buffered₁)) ∧ CyPolled st st₁ :=
    cyPollInstance_moves hring hq hpoll
  rcases hcase with ⟨-, rfl, -, rfl⟩ | ⟨-, rfl, -, rfl⟩
  · rw [append_nil]
    exact ⟨⟨buffered₁, hpolled⟩, hframe.closed⟩
  · obtain ⟨buffered₂, htimeout⟩ : ∃ buffered₂, Moves cfg guarded (viewOf st₁ accepted returned buffered₁)
        (viewOf (handleTimeout cfg env.now env.timeouts st₁) accepted returned buffered₂) :=
      cypherHandleTimeout_moves hpolled.ring hpolled.queued env.now env.timeouts
    have hfree : Moves cfg guarded _ _ :=
      cypherHandleFreeTimeout_moves htimeout.ring htimeout.queued env.freeNow
    have hpop : Moves cfg guarded _ _ := popResults_moves hfree.ring hfree.queued (Int.bmod maxNum (2 ^ 32))
    refine ⟨⟨_, (hpolled.trans htimeout).trans (hfree.trans hpop)⟩, ?_⟩
    exact (cypherHandleTimeout_proj (·.closed) env.now env.timeouts (fun _ _ _ => rfl) st₁).trans hframe.closed

lemma setSessions_moves (hring : Standing cfg.size st.toInFlight)
    (hq : Queued (viewOf st accepted returned buffered)) (sessions : List CypherSessionPair) :
    Moves cfg guarded (viewOf st accepted returned buffered)
      (viewOf { st with sessions := sessions } accepted returned buffered) :=
  ⟨⟨hring, Relation.ReflTransGen.refl⟩, hq.congr rfl fun _ _ => rfl⟩

lemma removeSession_cases {env : UninitEnv} {i : Nat} {st' : ChannelState}
    (h : removeSession cfg env i st = .ok st') :
    ∃ st₁ sessions, env.polls.foldlM (fun st evs => cyPollInstance cfg evs st) st = .ok st₁ ∧
      st' = { st₁ with sessions := sessions } := by
  unfold removeSession at h
  split at h
  · cases h
  rename_i st₁ hpolls
  split at h
  · cases h
    exact ⟨_, _, hpolls, rfl⟩
  · cases h
    exact ⟨st₁, _, hpolls, rfl⟩

lemma cypherClose_cases {env : UninitEnv} {closed : Nat} {status : StatusCode} {st' : ChannelState}
    (hopen : st.closed = false) (h : ChannelState.close cfg env closed st = .ok (status, st')) :
    ∃ st₁, env.polls.foldlM (fun st evs => cyPollInstance cfg evs st) st = .ok st₁ ∧
      ((env.result ≠ .kOk ∧ ∃ sessions, st' = { st₁ with sessions := sessions }) ∨
      (env.result = .kOk ∧ st'.closed = true ∧ st'.deleted = st₁.deleted)) := by
  unfold ChannelState.close at h
  rw [hopen, if_neg Bool.false_ne_true] at h
  split at h
  · cases h
  rename_i st₁ hpolls
  dsimp only at h
  split at h
  · rename_i hresult
    cases h
    exact ⟨st₁, hpolls, Or.inl ⟨hresult, _, rfl⟩⟩
  · rename_i hresult
    cases h
    exact ⟨st₁, hpolls, Or.inr ⟨not_not.mp hresult, rfl,
      foldl_resetCb_proj (·.deleted) (fun _ _ _ _ => rfl) cfg.dev _ _⟩⟩

lemma cypherStep_cases (h : cypherStep cfg run ev = .ok run') :
    (∃ env args status st, ev = .submit env args ∧ run.channel.closed = false ∧
      submitAsync cfg env args run.channel = .ok (status, st) ∧
      run' = ⟨st, if status = .kOk then run.accepted ++ [args] else run.accepted, run.returned, run.notified⟩) ∨
    (∃ env maxNum n results called st, ev = .poll env maxNum ∧ run.channel.closed = false ∧
      ChannelState.poll cfg env maxNum run.channel = .ok (n, results, called, st) ∧
      run' = ⟨st, run.accepted, run.returned ++ results, run.notified ++ called⟩) ∨
    (∃ algorithm, ev = .addSession algorithm ∧ run.channel.closed = false ∧
      run' = { run with channel := run.channel.addSession algorithm }) ∨
    (∃ env i st, ev = .removeSession env i ∧ run.channel.closed = false ∧
      removeSession cfg env i run.channel = .ok st ∧ run' = { run with channel := st }) ∨
    (∃ env closed status st, ev = .close env closed ∧
      ChannelState.close cfg env closed run.channel = .ok (status, st) ∧ run' = { run with channel := st }) ∨
    (∃ pool, ev = .memory pool ∧
      run' = { run with channel := run.channel.onInFlight fun s => { s with pool := pool } }) := by
  unfold cypherStep at h
  split at h
  · rename_i env args
    split at h
    · cases h
    rename_i hclosed
    split at h
    · cases h
    · rename_i status st hsubmit
      cases h
      exact Or.inl ⟨env, args, status, st, rfl, by simpa using hclosed, hsubmit, rfl⟩
  · rename_i env maxNum
    split at h
    · cases h
    rename_i hclosed
    split at h
    · cases h
    · rename_i n results called st hpoll
      cases h
      exact Or.inr (Or.inl ⟨env, maxNum, n, results, called, st, rfl, by simpa using hclosed, hpoll, rfl⟩)
  · rename_i algorithm
    split at h
    · cases h
    rename_i hclosed
    cases h
    exact Or.inr (Or.inr (Or.inl ⟨algorithm, rfl, by simpa using hclosed, rfl⟩))
  · rename_i env i
    split at h
    · cases h
    rename_i hclosed
    split at h
    · cases h
    · rename_i st hremove
      cases h
      exact Or.inr (Or.inr (Or.inr (Or.inl ⟨env, i, st, rfl, by simpa using hclosed, hremove, rfl⟩)))
  · rename_i env closed
    split at h
    · cases h
    · rename_i status st hclose
      cases h
      exact Or.inr (Or.inr (Or.inr (Or.inr (Or.inl ⟨env, closed, status, st, rfl, hclose, rfl⟩))))
  · rename_i pool
    cases h
    exact Or.inr (Or.inr (Or.inr (Or.inr (Or.inr ⟨pool, rfl, rfl⟩))))

def CypherEventGuard (cfg : CypherConfig) (run : CypherRun) : CypherEvent → Prop
  | .submit env args => CypherSubmitGuard cfg env args run.channel
  | _ => True

def CypherKeepsOpen : CypherEvent → Prop
  | .close env _ => env.result ≠ .kOk
  | _ => True

lemma cypherStep_closes (hclosed : run.channel.closed = false) (hev : ¬ CypherKeepsOpen ev)
    (hstep : cypherStep cfg run ev = .ok run') :
    ∃ env closed st₁, ev = .close env closed ∧ env.result = .kOk ∧
      env.polls.foldlM (fun st evs => cyPollInstance cfg evs st) run.channel = .ok st₁ ∧
      run'.channel.closed = true ∧ run' = { run with channel := run'.channel } ∧
      run'.channel.deleted = st₁.deleted := by
  rcases cypherStep_cases hstep with ⟨_, _, _, _, rfl, -⟩ | ⟨_, _, _, _, _, _, rfl, -⟩ | ⟨_, rfl, -⟩ |
    ⟨_, _, _, rfl, -⟩ | ⟨env, closed, status, st, rfl, hclose, rfl⟩ | ⟨_, rfl, -⟩
  · exact absurd trivial hev
  · exact absurd trivial hev
  · exact absurd trivial hev
  · exact absurd trivial hev
  · obtain ⟨st₁, hpolls, ⟨hresult, -⟩ | ⟨hresult, hclosed', hdeleted⟩⟩ := cypherClose_cases hclosed hclose
    · exact absurd hresult hev
    · exact ⟨env, closed, st₁, rfl, hresult, hpolls, hclosed', rfl, hdeleted⟩
  · exact absurd trivial hev

lemma cypherStep_closed (hclosed : run.channel.closed = true) (hstep : cypherStep cfg run ev = .ok run') :
    run'.channel.closed = true ∧ run' = { run with channel := run'.channel } ∧
      run'.channel.deleted = run.channel.deleted := by
  rcases cypherStep_cases hstep with ⟨_, _, _, _, -, hopen, -⟩ | ⟨_, _, _, _, _, _, -, hopen, -⟩ |
    ⟨_, -, hopen, -⟩ | ⟨_, _, _, -, hopen, -⟩ | ⟨env, closed, status, st, -, hclose, rfl⟩ | ⟨pool, -, rfl⟩
  · exact absurd (hclosed.symm.trans hopen) (by decide)
  · exact absurd (hclosed.symm.trans hopen) (by decide)
  · exact absurd (hclosed.symm.trans hopen) (by decide)
  · exact absurd (hclosed.symm.trans hopen) (by decide)
  · unfold ChannelState.close at hclose
    rw [if_pos hclosed] at hclose
    cases hclose
    exact ⟨hclosed, rfl, rfl⟩
  · exact ⟨hclosed, rfl, rfl⟩

structure CypherKept (cfg : CypherConfig) (run : CypherRun) (buffered : List CypherResult) : Prop where
  ring : Standing cfg.size run.channel.toInFlight
  queued : Queued (viewOf run.channel run.accepted run.returned buffered)
  ledger : Ledger CypherMeta.userCtx (viewOf run.channel run.accepted run.returned buffered).books
  opened : run.channel.closed = false

lemma queueSize_pos (cfg : CypherConfig) : 0 < cfg.queueSize := by
  have hpos : 0 < cfg.size.maxInQatSize * cfg.bufferMultiplier := Nat.mul_pos cfg.size.pos cfg.queue_pos
  have hle : cfg.size.maxInQatSize * cfg.bufferMultiplier ≤ 2 ^ 63 :=
    (Nat.mul_le_mul cfg.size_lt.le cfg.queue_lt.le).trans_eq (by norm_num)
  exact hpos.trans_le (maxInQatSize_le_slotNum ⟨_, hpos, hle⟩)

lemma cypherKept_init (hfits : cfg.QueueFits) (ivBuf : Nat) (pool : PoolState) :
    CypherKept cfg (initCypherRun cfg ivBuf pool) [] where
  ring := ring_init _ _ _ _ _ _
  queued := ⟨represents_new (queueSize_pos cfg) hfits _, by simp [viewOf, initCypherRun, initChannel, init, TimerManager.new]⟩
  ledger := ⟨[], [], rfl, rfl, Forall₂.nil⟩
  opened := rfl

lemma submitAsync_closed {env : SubmitEnv} {args : CypherReqArgs} {status : StatusCode} {st' : ChannelState}
    (h : submitAsync cfg env args st = .ok (status, st')) : st'.closed = st.closed := by
  rcases submitAsync_cases h with ⟨-, bufs, pool, rfl⟩ | ⟨-, -, cb, bufs, pool, -, rfl⟩ | ⟨-, sub, hsub⟩
  · rfl
  · rfl
  · obtain ⟨len, rfl⟩ := hsub.state
    rfl

lemma CypherKept.moves (h : CypherKept cfg run buffered) (hstep : cypherStep cfg run ev = .ok run')
    (hopen : CypherKeepsOpen ev) (hguard : guarded → CypherEventGuard cfg run ev) :
    (∃ buffered', Moves cfg guarded (viewOf run.channel run.accepted run.returned buffered)
      (viewOf run'.channel run'.accepted run'.returned buffered')) ∧ run'.channel.closed = false := by
  rcases cypherStep_cases hstep with ⟨env, args, status, st, rfl, -, hsubmit, rfl⟩ |
    ⟨env, maxNum, n, results, called, st, rfl, -, hpoll, rfl⟩ | ⟨algorithm, rfl, -, rfl⟩ |
    ⟨env, i, st, rfl, -, hremove, rfl⟩ | ⟨env, closed, status, st, rfl, hclose, rfl⟩ | ⟨pool, rfl, rfl⟩
  · exact ⟨⟨buffered, submitAsync_moves h.ring h.queued hsubmit hguard⟩,
      (submitAsync_closed hsubmit).trans h.opened⟩
  · obtain ⟨hmoves, hclosed⟩ := cypherPoll_moves guarded h.ring h.queued hpoll
    exact ⟨hmoves, hclosed.trans h.opened⟩
  · exact ⟨⟨buffered, setSessions_moves h.ring h.queued _⟩, h.opened⟩
  · obtain ⟨st₁, sessions, hpolls, rfl⟩ := removeSession_cases hremove
    obtain ⟨⟨buffered', hmoves⟩, hframe⟩ := uninitPolls_moves guarded h.ring h.queued hpolls
    exact ⟨⟨buffered', hmoves.trans (setSessions_moves hmoves.ring hmoves.queued _)⟩, hframe.closed.trans h.opened⟩
  · obtain ⟨st₁, hpolls, ⟨-, sessions, rfl⟩ | ⟨hresult, -⟩⟩ := cypherClose_cases h.opened hclose
    · obtain ⟨⟨buffered', hmoves⟩, hframe⟩ := uninitPolls_moves guarded h.ring h.queued hpolls
      exact ⟨⟨buffered', hmoves.trans (setSessions_moves hmoves.ring hmoves.queued _)⟩, hframe.closed.trans h.opened⟩
    · exact absurd hresult hopen
  · refine ⟨⟨buffered, ?_⟩, h.opened⟩
    exact ⟨Advances.keep (h.ring.congr rfl rfl rfl rfl rfl rfl rfl) (fun _ => SameRequest.refl _) rfl rfl,
      h.queued.congr rfl fun _ _ => rfl⟩

lemma CypherKept.step (h : CypherKept cfg run buffered) (hopen : CypherKeepsOpen ev)
    (hstep : cypherStep cfg run ev = .ok run') :
    ∃ buffered', CypherKept cfg run' buffered' := by
  obtain ⟨⟨buffered', hmoves⟩, hopened⟩ : (∃ buffered', Moves cfg False _ _) ∧ _ :=
    h.moves hstep hopen False.elim
  exact ⟨buffered', hmoves.ring, hmoves.queued, h.ledger.steps hmoves.advances.steps, hopened⟩

end Vesal.Proofs
