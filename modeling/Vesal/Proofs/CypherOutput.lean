import Vesal.Proofs.CypherContexts
import Vesal.Proofs.FrameAssembly

/-! # The output of a cypher request -/

namespace Vesal.Proofs

open ChannelState Library List Function Bool

variable {cfg : CypherConfig} {st st' : ChannelState}

def ZeroCopy (dev : DmaUnit) (dst : IOBlock) : Prop :=
  dev.svmEnabled = true ∨ dev.lookUpAddrAcrossBound dst.data dst.size = 1

lemma fillOneBuffer_dmaAble (dev : DmaUnit) (caller : List Extent) (addr len : Nat) (copy : Bool) (index : Nat)
    (buf : QatBuf) (pool : PoolState) :
    (fillOneBuffer dev caller addr len copy index buf pool).2.1.dmaAble index =
        (dev.svmEnabled || dev.lookUpAddrAcrossBound addr len == 1) ∧
      (fillOneBuffer dev caller addr len copy index buf pool).2.1.dstUsrDataLen = buf.dstUsrDataLen := by
  unfold fillOneBuffer
  dsimp only
  split
  · exact ⟨update_self _ _ _, rfl⟩
  · split
    · exact ⟨update_self _ _ _, rfl⟩
    · split
      · exact ⟨update_self _ _ _, rfl⟩
      · exact ⟨update_self _ _ _, rfl⟩

structure DstReady (dev : DmaUnit) (dst : IOBlock) (buf : QatBuf) : Prop where
  usrData : buf.dstUsrData = dst.data
  usrDataLen : buf.dstUsrDataLen = dst.size
  place : (ZeroCopy dev dst ∧ (dev.svmEnabled = true ∨ buf.dmaAble 0 = true) ∧
      (buf.pBuffers 0).pData = dst.data) ∨
    (¬ ZeroCopy dev dst ∧ dev.svmEnabled = false ∧ buf.dmaAble 0 = false ∧
      Extent.Disjoint ⟨(buf.pBuffers 0).pData, dst.size⟩ dst.extent)

variable {dev : DmaUnit} {buf : QatBuf} {args : CypherReqArgs}

variable {dst : IOBlock} {pool pool' : PoolState} {c : Nat}

lemma fillDst_ready {caller : List Extent} {buf' : QatBuf} (hcaller : dst.extent ∈ caller)
    (h : fillDst dev caller dst 0 0 buf pool = (true, buf', pool')) :
    DstReady dev dst buf' := by
  have hfilled := fillDst_filled dev caller dst 0 0 buf buf' pool pool' (by decide) h
  have hsize := dst.size_lt
  unfold fillDst at h
  split at h
  · cases h
  have hlen : (dst.size + 2 ^ 65 - 0 - 0) % 2 ^ 32 = dst.size := by omega
  rw [hlen] at h
  have hfill := fillOneBuffer_dmaAble dev caller (dst.data + 0) dst.size false 0
    { buf with dstUsrData := dst.data, dstUsrDataLen := dst.size, numBuffers := 1 } pool
  rw [h] at hfill
  obtain ⟨hdma, husrDataLen⟩ := hfill
  refine ⟨hfilled.usrData, husrDataLen, ?_⟩
  rcases hfilled.place with ⟨hzero, hplace⟩ | ⟨hsvm, hcopied, block, hstart, hle, hdisjoint⟩
  · refine Or.inl ⟨?_, hzero, hplace⟩
    rcases hzero with hsvm | hable
    · exact Or.inl hsvm
    · rw [hdma] at hable
      simpa [ZeroCopy] using hable
  · refine Or.inr ⟨?_, hsvm, hcopied, ?_⟩
    · rintro (hsvm' | hone)
      · exact false_ne_true (hsvm.symm.trans hsvm')
      · have hmapped : (dev.lookUpAddrAcrossBound dst.data dst.size == 1) = false :=
          (or_eq_false_iff.mp (hdma.symm.trans hcopied)).2
        exact (beq_eq_false_iff_ne.mp hmapped) hone
    · have hapart := hdisjoint dst.extent (mem_append_right _ hcaller)
      apply hapart.mono
      rw [hfilled.len] at hle
      refine ⟨hstart.le, ?_⟩
      rw [← hstart]
      exact Nat.add_le_add_left hle _

lemma fillCypherBuffers_ready {srcBuf dstBuf srcBuf' dstBuf' : QatBuf}
    (h : fillCypherBuffers dev args srcBuf dstBuf pool = .ok (true, srcBuf', dstBuf', pool')) :
    DstReady dev args.dst dstBuf' := by
  obtain ⟨pool₁, -, hdst⟩ := fillCypherBuffers_fills h
  exact fillDst_ready (mem_append_right _ (mem_singleton_self _)) hdst

def OutputFramed (before after : Memory) (dst : IOBlock) (output : List UInt8) : Prop :=
  readBytes after dst.data dst.size = output ++ (readBytes before dst.data dst.size).drop output.length

lemma copyBack_framed_iff (h : DstReady dev dst buf) (before : Memory) {output : List UInt8}
    (hlen : output.length ≤ dst.size) :
    OutputFramed before (decompCopyBackIfNecessary dev buf buf.dstUsrDataLen
        (writeBytes before (buf.pBuffers 0).pData output)) dst output ↔
      ZeroCopy dev dst ∨ (readBytes before (buf.pBuffers 0).pData dst.size).drop output.length =
        (readBytes before dst.data dst.size).drop output.length := by
  unfold OutputFramed decompCopyBackIfNecessary
  rw [h.usrData, h.usrDataLen]
  rcases h.place with ⟨hzero, hable, hplace⟩ | ⟨hcopy, hsvm, hable, hdisjoint⟩
  · have hcond : (!dev.svmEnabled && !buf.dmaAble 0) = false := by
      rcases hable with h | h <;> simp [h]
    rw [hcond, if_neg Bool.false_ne_true, hplace, readBytes_writeBytes_start _ _ hlen]
    exact iff_of_true rfl (Or.inl hzero)
  · have hback : ∀ mem, readBytes (writeBytes mem dst.data (readBytes mem (buf.pBuffers 0).pData dst.size))
        dst.data dst.size = readBytes mem (buf.pBuffers 0).pData dst.size := by
      intro mem
      have hread := readBytes_writeBytes mem dst.data (readBytes mem (buf.pBuffers 0).pData dst.size)
      rw [readBytes_length] at hread
      exact hread
    have hcond : (!dev.svmEnabled && !buf.dmaAble 0) = true := by
      rw [hsvm, hable]
      rfl
    rw [hcond, if_pos rfl, hback, readBytes_writeBytes_start _ _ hlen, append_cancel_left_eq,
      or_iff_right hcopy]

lemma returnBuf_mem {π κ : Type} (dev : DmaUnit) (buf : Option QatBuf) (s : InFlight π κ) :
    (s.returnBuf dev buf).pool.mem = s.pool.mem := by
  cases buf with
  | none => rfl
  | some b => exact freeDataIfNecessary_mem dev b s.pool

lemma cleanUpReqData_mem (dev : DmaUnit) (slot : Nat) (c : Nat) (s : InFlight CypherMeta CypherCbContext) :
    (s.cleanUpReqData dev (some slot) (some c)).pool.mem = s.pool.mem := by
  obtain ⟨metas, timers, heq, -⟩ := dropMeta_frame slot s
  have hreset : ((s.dropMeta slot).resetCb dev c).pool.mem = (s.dropMeta slot).pool.mem := by
    unfold InFlight.resetCb InFlight.setCb
    rw [returnBuf_mem, returnBuf_mem]
  refine hreset.trans ?_
  rw [heq]

lemma cyCallback_mem {ev : Completion} (h : cyCallback cfg ev c st = .ok st')
    (hvalid : (st.metas (cfg.size.slotOf (st.cbs c).reqId)).valid = true) (hbuf : (st.cbs c).dstBuf = some buf) :
    st'.pool.mem = decompCopyBackIfNecessary cfg.dev buf buf.dstUsrDataLen ev.mem := by
  unfold cyCallback at h
  dsimp only at h
  split at h
  · cases h
  rw [if_neg (by simpa [onInFlight] using hvalid), hbuf] at h
  cases h
  exact cleanUpReqData_mem _ _ _ _

def outputLen (args : CypherReqArgs) : CypherAlgorithm → Nat
  | .kAES_XTS => totLen args.src
  | .kSHA256 => sha256DstLen
  | .kNum => 0

lemma outputLen_le {algorithm : CypherAlgorithm} (h : validateArgs args algorithm = true) :
    outputLen args algorithm ≤ args.dst.size := by
  cases algorithm with
  | kAES_XTS => simpa [validateArgs, outputLen] using h
  | kSHA256 => simpa [validateArgs, outputLen] using h
  | kNum => exact Nat.zero_le _

structure ContextStays (cfg : CypherConfig) (n : Nat) (cb : CypherCbContext) (run : CypherRun) : Prop where
  kept : ContextsKept cfg run
  older : n < run.channel.nextReqId
  same : ∀ c ∈ run.channel.hw, (run.channel.cbs c).reqId = n → run.channel.cbs c = cb

lemma ContextStays.step {n : Nat} {cb : CypherCbContext} {run run' : CypherRun} {ev : CypherEvent}
    (h : ContextStays cfg n cb run) (hopen : CypherKeepsOpen ev) (hstep : cypherStep cfg run ev = .ok run') :
    ContextStays cfg n cb run' := by
  have holder := h.older
  rcases cypherStep_contexts h.kept.ring h.kept.opened hopen hstep with ⟨hkeeps, -⟩ | ⟨sub, env, args, hsub, -⟩
  · refine ⟨h.kept.step hopen hstep, by rw [hkeeps.nextReqId]; exact holder, fun c hc => ?_⟩
    rw [hkeeps.cbs c hc]
    exact h.same c (hkeeps.hw.subset hc)
  · have hadds := hsub.contexts h.kept.ring
    refine ⟨h.kept.step hopen hstep, by rw [hadds.nextReqId]; omega, fun c hc hn => ?_⟩
    rw [hadds.hw, mem_append, mem_singleton] at hc
    rw [hadds.cbs] at hn ⊢
    rcases hc with hold | rfl
    · rw [update_of_ne (ne_of_mem_of_not_mem hold hadds.free)] at hn ⊢
      exact h.same c hold hn
    · -- the new request has a number of its own
      rw [update_self, hadds.reqId] at hn
      omega

/-- A request is accepted in `run₀`. After any further events, and any callbacks before its own, it
is the oldest request of the hardware and has not timed out. -/
structure Completing (cfg : CypherConfig) (run₀ : CypherRun) (args : CypherReqArgs) (st : ChannelState) (c : Nat)
    (hw : List Nat) : Prop where
  reached : ∃ ivBuf pool, CypherRuns cfg (fun _ ev => CypherKeepsOpen ev) (initCypherRun cfg ivBuf pool) run₀
  submitted : ∃ env st₀ run evs, submitAsync cfg env args run₀.channel = .ok (.kOk, st₀) ∧
    CypherRuns cfg (fun _ ev => CypherKeepsOpen ev)
      { run₀ with channel := st₀, accepted := run₀.accepted ++ [args] } run ∧
    cyPollInstance cfg evs run.channel = .ok st
  oldest : st.hw = c :: hw
  request : (st.cbs c).reqId = run₀.channel.nextReqId
  valid : (st.metas (cfg.size.slotOf (st.cbs c).reqId)).valid = true

lemma Completing.exists_submission {run₀ : CypherRun} {hw : List Nat} (h : Completing cfg run₀ args st c hw) :
    ∃ (sub : CypherSubmission) (env : SubmitEnv) (st₀ : ChannelState),
      sub.Accepted cfg env args run₀.channel st₀ ∧ st.cbs c = sub.cb ∧
      Standing cfg.size st.toInFlight := by
  obtain ⟨ivBuf, pool, hreached⟩ := h.reached
  obtain ⟨env, st₀, run, evs, hsubmit, hruns, hpoll⟩ := h.submitted
  have hkept₀ := contextsKept_of_runs (fun _ _ hev => hev) hreached
  obtain ⟨sub, hsub⟩ := exists_cypherSubmission hsubmit
  have hadds := hsub.contexts hkept₀.ring
  have hstep : cypherStep cfg run₀ (.submit env args) =
      .ok { run₀ with channel := st₀, accepted := run₀.accepted ++ [args] } := by
    rw [cypherStep, hkept₀.opened, if_neg Bool.false_ne_true, hsubmit]
    rfl
  have hopen : CypherKeepsOpen (.submit env args) := trivial
  have hstays : ContextStays cfg run₀.channel.nextReqId sub.cb run := by
    apply hruns.invariant (P := ContextStays cfg run₀.channel.nextReqId sub.cb)
    · refine ⟨hkept₀.step hopen hstep, by rw [hadds.nextReqId]; exact Nat.lt_succ_self _, fun a ha hn => ?_⟩
      rw [hadds.hw, mem_append, mem_singleton] at ha
      rw [hadds.cbs] at hn ⊢
      rcases ha with hold | rfl
      · -- the requests before have smaller numbers
        rw [update_of_ne (ne_of_mem_of_not_mem hold hadds.free)] at hn
        obtain ⟨args', hargs', -⟩ := hkept₀.submitted a hold
        have hlt := (List.getElem?_eq_some_iff.mp hargs').1
        rw [hn, hkept₀.next] at hlt
        exact absurd hlt (lt_irrefl _)
      · exact update_self _ _ _
    · intro run ev run' hrun hev hstep'
      exact hrun.step hev hstep'
  have hpolled := cyPollInstance_contexts hstays.kept.ring hpoll
  have hc : c ∈ st.hw := by
    rw [h.oldest]
    exact mem_cons_self
  have hcbs := hpolled.cbs c hc
  refine ⟨sub, env, st₀, hsub, ?_, hpolled.ring⟩
  rw [hcbs]
  apply hstays.same c (hpolled.hw.subset hc)
  rw [← hcbs]
  exact h.request

/-- When a request completes, the callback returns. What the user then finds is the output and the
old rest of the destination, exactly if the destination was used in place, or the block of the
pool happens to hold that rest. -/
theorem cypher_output_framed_iff (cfg : CypherConfig) (run₀ : CypherRun) (args : CypherReqArgs) (st : ChannelState)
    (c : Nat) (hw : List Nat) (h : Completing cfg run₀ args st c hw) (p : CypherSessionPair)
    (hsession : sessionOf args run₀.channel = some p) (before : Memory) (output : List UInt8)
    (hlen : output.length = outputLen args p.algorithm) :
    ∃ dstBuf st', (st.cbs c).dstBuf = some dstBuf ∧
      cyCallback cfg ⟨.success, writeBytes before (dstBuf.pBuffers 0).pData output⟩ c
        (st.onInFlight fun s => { s with hw := hw }) = .ok st' ∧
      (OutputFramed before st'.pool.mem args.dst output ↔
        ZeroCopy cfg.dev args.dst ∨
          (readBytes before (dstBuf.pBuffers 0).pData args.dst.size).drop output.length =
            (readBytes before args.dst.data args.dst.size).drop output.length) := by
  obtain ⟨sub, env, st₀, hsub, hcb, hring⟩ := h.exists_submission
  have hbuf : (st.cbs c).dstBuf = some sub.dstBuf := by
    rw [hcb]
    exact (newCypherCallbackCtx_cb hsub.context).dstBuf
  have hp : sub.session = p := Option.some.inj (hsub.session.symm.trans hsession)
  have hroom : output.length ≤ args.dst.size := by
    rw [hlen, ← hp]
    exact outputLen_le hsub.valid
  obtain ⟨srcBuf, dstBuf, -, hfill⟩ := hsub.filled
  obtain ⟨st', hcallback⟩ := cyCallback_returns hring h.oldest hbuf
    ⟨.success, writeBytes before (sub.dstBuf.pBuffers 0).pData output⟩
  refine ⟨sub.dstBuf, st', hbuf, hcallback, ?_⟩
  rw [cyCallback_mem hcallback h.valid hbuf]
  exact copyBack_framed_iff (fillCypherBuffers_ready hfill) before hroom

def copyConfig : CypherConfig :=
  { cypherSampleConfig with dev := ⟨false, fun addr _ => if addr = 8192 then 0 else 1⟩ }

def recycledPool : PoolState := ⟨fun a => if 65536 ≤ a then 170 else 0, [], [some ⟨65536, 64⟩]⟩

def sampleDigest : List UInt8 := List.replicate 32 1

/-- The destination is as long as the digest, so that the whole block is overwritten. -/
theorem cypher_output_framed_whole :
    ∃ (st st' : ChannelState) (c : Nat) (hw : List Nat) (dstBuf : QatBuf),
      Completing copyConfig (initCypherRun copyConfig 16384 recycledPool) (hashArgs 7) st c hw ∧
      ¬ ZeroCopy copyConfig.dev (hashArgs 7).dst ∧ (st.cbs c).dstBuf = some dstBuf ∧
      cyCallback copyConfig ⟨.success, writeBytes recycledPool.mem (dstBuf.pBuffers 0).pData sampleDigest⟩ c
        (st.onInFlight fun s => { s with hw := hw }) = .ok st' ∧
      OutputFramed recycledPool.mem st'.pool.mem (hashArgs 7).dst sampleDigest := by
  let run₀ := initCypherRun copyConfig 16384 recycledPool
  have hcheck : (match submitAsync copyConfig ⟨.success, 0⟩ (hashArgs 7) run₀.channel with
      | .ok (.kOk, st) => st.hw == [0] && (st.cbs 0).reqId == 0 && (st.metas 0).valid
      | _ => false) = true := by decide +kernel
  split at hcheck
  · rename_i st hsubmit
    simp only [and_eq_true, beq_iff_eq] at hcheck
    obtain ⟨⟨hhw, hrequest⟩, hvalid⟩ := hcheck
    have hcompleting : Completing copyConfig run₀ (hashArgs 7) st 0 [] :=
      ⟨⟨16384, recycledPool, Relation.ReflTransGen.refl⟩,
        ⟨⟨.success, 0⟩, st, _, [], hsubmit, Relation.ReflTransGen.refl, rfl⟩, hhw, hrequest, by
          rw [hrequest]
          exact hvalid⟩
    obtain ⟨dstBuf, st', hbuf, hcallback, hframed⟩ := cypher_output_framed_iff copyConfig run₀ (hashArgs 7) st 0 []
      hcompleting ⟨.kSHA256, true⟩ rfl recycledPool.mem sampleDigest rfl
    have hrest : ∀ addr, (readBytes recycledPool.mem addr 32).drop 32 = [] :=
      fun addr => List.drop_eq_nil_of_le (readBytes_length _ addr 32).le
    refine ⟨st, st', 0, [], dstBuf, hcompleting, ?_, hbuf, hcallback, hframed.mpr (Or.inr ?_)⟩
    · rintro (hsvm | hone)
      · exact false_ne_true hsvm
      · exact absurd hone (by decide)
    · exact (hrest _).trans (hrest _).symm
  · exact absurd hcheck false_ne_true

def longArgs : CypherReqArgs := { hashArgs 7 with dst := ⟨40, 8192, 7, none, by decide⟩ }

def digestAt (addr : Nat) : Completion := ⟨.success, writeBytes recycledPool.mem addr sampleDigest⟩

/-- The same request, once with a copied and once with a zero-copy destination: in the first case
8 bytes of the block of the pool end up behind the digest. -/
theorem recycled_bytes_reach_user :
    (∃ run, runCypher copyConfig (initCypherRun copyConfig 16384 recycledPool)
        [.submit ⟨.success, 0⟩ longArgs, cypherPollAt 1 [digestAt 65536]] = .ok run ∧
      run.returned = [⟨.kOk, 7⟩] ∧
      readBytes run.channel.pool.mem 8192 40 = sampleDigest ++ List.replicate 8 170 ∧
      ¬ OutputFramed recycledPool.mem run.channel.pool.mem longArgs.dst sampleDigest) ∧
    ∃ run, runCypher cypherSampleConfig (initCypherRun cypherSampleConfig 16384 recycledPool)
        [.submit ⟨.success, 0⟩ longArgs, cypherPollAt 1 [digestAt 8192]] = .ok run ∧
      run.returned = [⟨.kOk, 7⟩] ∧
      readBytes run.channel.pool.mem 8192 40 = sampleDigest ++ List.replicate 8 0 := by
  constructor
  · obtain ⟨run, -, hrun, hgoal⟩ := exists_runs_of_reaches (cypherStep copyConfig)
      (initCypherRun copyConfig 16384 recycledPool)
      [.submit ⟨.success, 0⟩ longArgs, cypherPollAt 1 [digestAt 65536]] (fun _ _ => true)
      (fun run => run.returned == [⟨.kOk, 7⟩] &&
        readBytes run.channel.pool.mem 8192 40 == sampleDigest ++ List.replicate 8 170)
      (fun _ _ h => h) (by decide +kernel)
    simp only [and_eq_true, beq_iff_eq] at hgoal
    refine ⟨run, hrun, hgoal.1, hgoal.2, fun h => ?_⟩
    have hbytes := hgoal.2.symm.trans h
    exact absurd hbytes (by decide +kernel)
  · obtain ⟨run, -, hrun, hgoal⟩ := exists_runs_of_reaches (cypherStep cypherSampleConfig)
      (initCypherRun cypherSampleConfig 16384 recycledPool)
      [.submit ⟨.success, 0⟩ longArgs, cypherPollAt 1 [digestAt 8192]] (fun _ _ => true)
      (fun run => run.returned == [⟨.kOk, 7⟩] &&
        readBytes run.channel.pool.mem 8192 40 == sampleDigest ++ List.replicate 8 0)
      (fun _ _ h => h) (by decide +kernel)
    simp only [and_eq_true, beq_iff_eq] at hgoal
    exact ⟨run, hrun, hgoal.1, hgoal.2⟩

end Vesal.Proofs
