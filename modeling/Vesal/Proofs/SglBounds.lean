import Vesal.SglWrites
import Vesal.Proofs.CypherBooks
import Vesal.Proofs.FrameAssembly
import Vesal.Proofs.SyncCalls

/-! # Bounds of the scatter-gather lists -/

namespace Vesal.Proofs

open EngineState ChannelState Library List

/-- A call that submits a request to a QAT channel. -/
inductive Submission where
  | codecSubmitAsync (cfg : ChannelConfig) (env : EngineState.SubmitEnv) (args : CodecRequestArgs)
      (st : EngineState)
  | codecSubmit (cfg : ChannelConfig) (env : CodecChannel.SyncEnv) (args : CodecRequestArgs)
      (st : EngineState)
  | cypherSubmitAsync (cfg : CypherConfig) (env : ChannelState.SubmitEnv) (args : CypherReqArgs)
      (st : ChannelState)
  | submitCypherSGLReq (cfg : CypherConfig) (env : ChannelState.SubmitEnv) (src : List Nat)
      (srcLen : List UInt32) (dst : Nat) (dstLen : UInt32) (req : CypherReqArgs) (st : ChannelState)

namespace Submission

def blocks : Submission → Nat
  | codecSubmitAsync _ _ args _ => args.src.length
  | codecSubmit _ _ args _ => args.src.length
  | cypherSubmitAsync _ _ args _ => args.src.length
  | submitCypherSGLReq _ _ src _ _ _ _ _ => src.length

def writes : Submission → List ArrayWrite
  | codecSubmitAsync cfg env args st =>
    if st.closed then [] else submitAsyncRequestWrites cfg.toEngineConfig env args st
  | codecSubmit cfg env args st =>
    if st.closed then [] else submitAsyncRequestWrites cfg.toEngineConfig env.submit args st
  | cypherSubmitAsync cfg env args st => if st.closed then [] else submitAsyncWrites cfg env args st
  | submitCypherSGLReq cfg env src srcLen dst dstLen req st =>
    if st.closed then (sglBlocks 0 src srcLen).2
    else submitCypherSGLReqWrites cfg env src srcLen dst dstLen req st

def answer : Submission → Option StatusCode
  | codecSubmitAsync cfg env args st =>
    if st.closed then none
    else (submitAsyncRequest cfg.toEngineConfig env args st).toOption.map Prod.fst
  | codecSubmit cfg env args st =>
    match CodecChannel.submit cfg env args st with
    | .ok (some r) => some r.result.status
    | _ => none
  | cypherSubmitAsync cfg env args st =>
    if st.closed then none else (submitAsync cfg env args st).toOption.map Prod.fst
  | submitCypherSGLReq cfg env src srcLen dst dstLen req st =>
    if st.closed then none
    else (ChannelState.submitCypherSGLReq cfg env src srcLen dst dstLen req st).toOption.map Prod.fst

end Submission

/-- All writes are inside the arrays, and too many blocks are answered with an error before any
write. -/
structure InBounds (s : Submission) : Prop where
  index : ∀ w ∈ s.writes, w.index < vesalMaxSglNum
  refused : vesalMaxSglNum < s.blocks → s.writes = [] ∧ ∃ status, s.answer = some status ∧ status ≠ .kOk

def codecRefuses (cfg : EngineConfig) (args : CodecRequestArgs) (st : EngineState) : Bool :=
  !st.closed && (!checkSessionOption args || st.isFatal || qatRingFull cfg st)

def cypherRefuses (cfg : CypherConfig) (args : CypherReqArgs) (st : ChannelState) : Bool :=
  !st.closed && (isChannelFull cfg st || st.reqRingQueue.isFull ||
    match sessionOf args st with
    | none => false
    | some p => !validateArgs args p.algorithm || decide (st.bufs.length < 2) ||
      decide (totalSize args.src % 2 ^ 64 = 0 ∧ args.dst.size = 0))

def refusesEarly : Submission → Bool
  | .codecSubmitAsync cfg _ args st => codecRefuses cfg.toEngineConfig args st
  | .codecSubmit cfg _ args st => codecRefuses cfg.toEngineConfig args st
  | .cypherSubmitAsync cfg _ args st => cypherRefuses cfg args st
  | .submitCypherSGLReq .. => false

def Inside (ws : List ArrayWrite) : Prop := ∀ w ∈ ws, w.index < vesalMaxSglNum

lemma inside_nil : Inside [] := by
  intro w hw
  cases hw

variable {ws : List ArrayWrite} {front k : Nat} {fault : SglFault}

variable {ws' : List ArrayWrite} {buf : QatBuf} {e len : Nat} {caller : List Extent} {dst : IOBlock}
  {s : Submission}

lemma inside_append (h : Inside ws) (h' : Inside ws') : Inside (ws ++ ws') := by
  intro w hw
  rcases mem_append.mp hw with hw | hw
  · exact h w hw
  · exact h' w hw

lemma inside_unless {closed : Bool} (h : Inside ws) :
    Inside (if closed then [] else ws) := by
  split
  · exact inside_nil
  · exact h

lemma inside_loopWrites (array : SglArray) {n : Nat} (h : n ≤ vesalMaxSglNum) :
    Inside (loopWrites array n) := by
  intro w hw
  obtain ⟨i, hi, rfl⟩ := mem_map.mp hw
  exact Nat.lt_of_lt_of_le (mem_range.mp hi) h

lemma inside_fillOneBufferWrites {index : Nat} (h : index < vesalMaxSglNum) :
    Inside (fillOneBufferWrites index) := by
  intro w hw
  simp only [fillOneBufferWrites, mem_cons, not_mem_nil, or_false] at hw
  rcases hw with rfl | rfl <;> exact h

lemma inside_freeDataWrites (dev : DmaUnit) (h : buf.numBuffers ≤ vesalMaxSglNum) :
    Inside (freeDataWrites dev buf) := by
  unfold freeDataWrites
  split
  · exact inside_nil
  · exact inside_loopWrites _ h

variable {dev : DmaUnit} {usrData : IOVector}

lemma endPointLoop_lt {rev : List IOBlock} {left : Nat} (h : endPointLoop rev left = .ok (e, len)) :
    e < rev.length := by
  induction rev generalizing left with
  | nil => cases h
  | cons b rev ih =>
    unfold endPointLoop at h
    split at h
    · cases h
      exact Nat.lt_succ_self _
    · exact Nat.lt_succ_of_lt (ih h)

variable {back : Nat} {pool pool' : PoolState} {srcBuf dstBuf : QatBuf} {args : CodecRequestArgs}
  {cfg : EngineConfig}

lemma findSglEndPoint_lt (h : findSglEndPoint usrData back = .ok (e, len)) :
    e < usrData.length := by
  unfold findSglEndPoint at h
  split at h
  · obtain ⟨last, hlast, h⟩ := Library.exists_of_bind_eq_ok h
    cases h
    unfold blockAt at hlast
    split at hlast
    · rename_i hget
      exact (List.getElem?_eq_some_iff.mp hget).1
    · cases hlast
  · have hlt := endPointLoop_lt h
    rwa [length_reverse] at hlt

lemma blockAt_fault {i : Nat} (h : blockAt usrData i = .error fault) :
    fault ≠ .bufferIndex k := by
  rintro rfl
  unfold blockAt at h
  split at h <;> cases h

lemma findSglStartPoint_fault (h : findSglStartPoint usrData front = .error fault) : fault ≠ .bufferIndex k := by
  have hloop : ∀ (blocks : List IOBlock) (i left : Nat),
      startPointLoop blocks i left ≠ .error (.bufferIndex k) := by
    intro blocks
    induction blocks with
    | nil => simp [startPointLoop]
    | cons b blocks ih =>
      intro i left
      unfold startPointLoop
      split
      · simp
      · exact ih _ _
  rintro rfl
  unfold findSglStartPoint at h
  split at h
  · cases h
  · exact hloop _ _ _ h

lemma findSglEndPoint_fault (h : findSglEndPoint usrData back = .error fault) :
    fault ≠ .bufferIndex k := by
  have hloop : ∀ (rev : List IOBlock) (left : Nat), endPointLoop rev left ≠ .error (.bufferIndex k) := by
    intro rev
    induction rev with
    | nil => simp [endPointLoop]
    | cons b rev ih =>
      intro left
      unfold endPointLoop
      split
      · simp
      · exact ih _
  rintro rfl
  unfold findSglEndPoint at h
  split at h
  · cases hlast : blockAt usrData (usrData.length - 1) with
    | error fault =>
      simp only [hlast, bind, Except.bind, Except.error.injEq] at h
      exact blockAt_fault hlast h
    | ok last => simp [hlast, bind, Except.bind, pure, Except.pure] at h
  · exact hloop _ _ h

/-- The faults of a call are its writes outside the arrays, and there are none if it `fits`. -/
def WritesOf (fill : Except SglFault (Bool × QatBuf × PoolState)) (ws : List ArrayWrite) (fits : Prop) : Prop :=
  ((∃ k, fill = .error (.bufferIndex k)) ↔ ¬Inside ws) ∧
    (fits → Inside ws ∧ ∀ buf' pool', fill = .ok (true, buf', pool') → buf'.numBuffers ≤ vesalMaxSglNum)

variable {fits : Prop}

lemma writesOf_error (h : ∀ k, fault ≠ .bufferIndex k) : WritesOf (.error fault) [] fits :=
  ⟨by simp [h, inside_nil], fun _ => ⟨inside_nil, fun _ _ hfill => by cases hfill⟩⟩

lemma writesOf_ok {ok : Bool} (hws : Inside ws) (h : fits → ok = true → buf.numBuffers ≤ vesalMaxSglNum) :
    WritesOf (.ok (ok, buf, pool)) ws fits := by
  refine ⟨by simp [hws], fun hfits => ⟨hws, ?_⟩⟩
  intro buf' pool' hfill
  cases hfill
  exact h hfits rfl

lemma WritesOf.append {fill : Except SglFault (Bool × QatBuf × PoolState)} {fits' : Prop}
    (h : WritesOf fill ws' fits') (hws : Inside ws) (hfits : fits → fits') : WritesOf fill (ws ++ ws') fits := by
  have hiff : Inside (ws ++ ws') ↔ Inside ws' :=
    ⟨fun hall w hw => hall w (mem_append_right ws hw), inside_append hws⟩
  unfold WritesOf
  rw [hiff]
  exact ⟨h.1, fun hfit => h.2 (hfits hfit)⟩

lemma fillSrcLoop_writes (dev : DmaUnit) (usrData : IOVector) (b e firstUnit firstUnitLen dmaEndLen n i : Nat)
    (buf : QatBuf) (pool : PoolState) :
    WritesOf (fillSrcLoop dev usrData b e firstUnit firstUnitLen dmaEndLen n i buf pool)
      (fillSrcLoopWrites dev usrData b e firstUnit firstUnitLen dmaEndLen n i buf pool)
      (buf.numBuffers + n ≤ vesalMaxSglNum) := by
  induction n generalizing i buf pool with
  | zero => exact writesOf_ok inside_nil fun hfits _ => hfits
  | succ n ih =>
    unfold fillSrcLoopWrites fillSrcLoop
    cases hblock : blockAt usrData i with
    | error fault => exact writesOf_error fun k => blockAt_fault hblock
    | ok block =>
      simp only [bind, Except.bind]
      generalize (if i = b then (firstUnit, firstUnitLen)
        else if i = e then (block.data, dmaEndLen) else (block.data, block.size)) = piece
      by_cases hfull : vesalMaxSglNum ≤ buf.numBuffers
      · rw [if_pos hfull, if_pos hfull]
        exact ⟨by simp [hfull, Inside], fun hfits => by omega⟩
      · have hlt := not_le.mp hfull
        have hnum := fillOneBuffer_numBuffers dev usrData.extents piece.1 (piece.2 % 2 ^ 32) true
          buf.numBuffers buf pool
        rw [if_neg hfull, if_neg hfull]
        rcases hfill : fillOneBuffer dev usrData.extents piece.1 (piece.2 % 2 ^ 32) true buf.numBuffers buf
          pool with ⟨filled, buf₁, pool₁⟩
        rw [hfill] at hnum
        simp only at hnum
        cases filled with
        | false =>
          exact writesOf_ok (inside_append (inside_fillOneBufferWrites hlt) (inside_freeDataWrites dev (by omega)))
            fun _ hok => by cases hok
        | true =>
          refine (ih (i + 1) _ pool₁).append (inside_fillOneBufferWrites hlt) fun hfits => ?_
          simp only
          omega

/-- The faults of `FillSrc` in the model are the writes outside the arrays of `QatBuf`. -/
lemma fillSrc_writes (dev : DmaUnit) (usrData : IOVector) (front back : Nat) (buf : QatBuf) (pool : PoolState) :
    WritesOf (fillSrc dev usrData front back buf pool) (fillSrcWrites dev usrData front back buf pool)
      (usrData.length ≤ vesalMaxSglNum) := by
  unfold fillSrcWrites fillSrc
  split
  · exact writesOf_ok inside_nil fun _ hok => by cases hok
  cases hstart : findSglStartPoint usrData front with
  | error fault => exact writesOf_error fun k => findSglStartPoint_fault hstart
  | ok start =>
    obtain ⟨b, off⟩ := start
    simp only [bind, Except.bind]
    cases hfirst : blockAt usrData b with
    | error fault => exact writesOf_error fun k => blockAt_fault hfirst
    | ok first =>
      cases hend : findSglEndPoint usrData back with
      | error fault => exact writesOf_error fun k => findSglEndPoint_fault hend
      | ok last =>
        obtain ⟨e, len⟩ := last
        have hlt := findSglEndPoint_lt hend
        simp only
        split
        · have hone : Inside (fillOneBufferWrites 0) := inside_fillOneBufferWrites (by decide)
          split
          · exact writesOf_ok hone fun _ hok => by cases hok
          · exact writesOf_ok hone fun _ _ => Nat.one_le_iff_ne_zero.mpr (by decide)
        · have hloop := fillSrcLoop_writes dev usrData b e (first.data + off) (first.size - off) len (e + 1 - b) b
            { buf with numBuffers := 0 } pool
          refine hloop.append inside_nil fun hfits => ?_
          simp only
          omega

lemma fillDst_numBuffers {buf' : QatBuf} (h : fillDst dev caller dst front back buf pool = (true, buf', pool')) :
    buf'.numBuffers = 1 := by
  unfold fillDst at h
  split at h
  · cases h
  · have hnum := fillOneBuffer_numBuffers dev caller (dst.data + front)
      ((dst.size + 2 ^ 65 - front - back) % 2 ^ 32) false 0
      { buf with dstUsrData := dst.data, dstUsrDataLen := dst.size, numBuffers := 1 } pool
    rw [h] at hnum
    exact hnum

lemma inside_fillDstWrites (dst : IOBlock) (front back : Nat) : Inside (fillDstWrites dst front back) := by
  unfold fillDstWrites
  split
  · exact inside_nil
  · exact inside_fillOneBufferWrites (by decide)

lemma fillBuffers_inside (dst : IOBlock) (offsets : FillOffsets) (srcBuf dstBuf : QatBuf) (pool : PoolState)
    (h : usrData.length ≤ vesalMaxSglNum) :
    Inside (fillBuffersWrites dev usrData dst offsets srcBuf dstBuf pool) := by
  obtain ⟨hsrc, hnum⟩ := (fillSrc_writes dev usrData offsets.srcFront offsets.srcBack srcBuf pool).2 h
  refine inside_append hsrc ?_
  rcases hfill : fillSrc dev usrData offsets.srcFront offsets.srcBack srcBuf pool with
    fault | ⟨fillSrcR, srcBuf', pool'⟩
  · exact inside_nil
  · rw [hfill] at hnum
    simp only
    rcases hdst : fillDst dev (usrData.extents ++ [dst.extent]) dst offsets.dstFront offsets.dstBack dstBuf
      pool' with ⟨fillDstR, dstBuf', pool''⟩
    refine inside_append (inside_fillDstWrites _ _ _) ?_
    split
    · exact inside_nil
    · refine inside_append ?_ ?_
      · split
        · rename_i hok
          subst hok
          exact inside_freeDataWrites dev (hnum srcBuf' pool' rfl)
        · exact inside_nil
      · split
        · rename_i hok
          subst hok
          exact inside_freeDataWrites dev (by rw [fillDst_numBuffers hdst]; decide)
        · exact inside_nil

structure FilledInside (srcBuf dstBuf : QatBuf) : Prop where
  src : srcBuf.numBuffers ≤ vesalMaxSglNum
  dst : dstBuf.numBuffers ≤ vesalMaxSglNum

lemma FilledInside.writes (h : FilledInside srcBuf dstBuf) :
    Inside (freeDataWrites dev srcBuf ++ freeDataWrites dev dstBuf) :=
  inside_append (inside_freeDataWrites dev h.src) (inside_freeDataWrites dev h.dst)

lemma filledInside_of_fill {dstFront dstBack : Nat} {srcBuf' dstBuf' : QatBuf} {pool₁ : PoolState}
    (h : usrData.length ≤ vesalMaxSglNum)
    (hsrc : fillSrc dev usrData front back srcBuf pool = .ok (true, srcBuf', pool₁))
    (hdst : fillDst dev caller dst dstFront dstBack dstBuf pool₁ = (true, dstBuf', pool')) :
    FilledInside srcBuf' dstBuf' where
  src := ((fillSrc_writes dev _ front back srcBuf pool).2 h).2 srcBuf' pool₁ hsrc
  dst := by
    rw [fillDst_numBuffers hdst]
    decide

lemma fillRequestBuffers_filled {srcBuf' dstBuf' : QatBuf} (hlen : args.src.length ≤ vesalMaxSglNum)
    (h : fillRequestBuffers dev args srcBuf dstBuf pool = .ok (true, srcBuf', dstBuf', pool')) :
    FilledInside srcBuf' dstBuf' := by
  obtain ⟨pool₁, hsrc, hdst⟩ := fillRequestBuffers_fills h
  by_cases hdir : args.direction = .kComp
  · rw [if_pos hdir] at hsrc hdst
    exact filledInside_of_fill hlen hsrc hdst
  · rw [if_neg hdir] at hsrc hdst
    exact filledInside_of_fill hlen hsrc hdst

lemma fillCypherBuffers_filled {args : CypherReqArgs} {srcBuf' dstBuf' : QatBuf}
    (hlen : args.src.length ≤ vesalMaxSglNum)
    (h : fillCypherBuffers dev args srcBuf dstBuf pool = .ok (true, srcBuf', dstBuf', pool')) :
    FilledInside srcBuf' dstBuf' := by
  obtain ⟨pool₁, hsrc, hdst⟩ := fillCypherBuffers_fills h
  exact filledInside_of_fill hlen hsrc hdst

variable (env : EngineState.SubmitEnv)

lemma codec_inside (st : EngineState) (hlen : args.src.length ≤ vesalMaxSglNum) :
    Inside (submitAsyncRequestWrites cfg env args st) := by
  unfold submitAsyncRequestWrites
  split
  · exact inside_nil
  refine inside_append (inside_loopWrites _ hlen) ?_
  rw [if_neg (not_lt.mpr hlen)]
  split
  · refine inside_append (fillBuffers_inside _ _ _ _ _ hlen) ?_
    split
    · rename_i hfill
      refine inside_append ?_ ?_
      · unfold setRequestWrites
        split
        · intro w hw
          obtain ⟨i, hi, hw⟩ := mem_flatMap.mp hw
          have hlt := Nat.lt_of_lt_of_le (mem_range.mp hi) hlen
          simp only [mem_cons, not_mem_nil, or_false] at hw
          rcases hw with rfl | rfl <;> exact hlt
        · exact inside_nil
      · split
        · exact inside_nil
        · exact (fillRequestBuffers_filled hlen hfill).writes
    · exact inside_nil
  · exact inside_nil

lemma cypher_inside {cfg : CypherConfig} {args : CypherReqArgs} (env : ChannelState.SubmitEnv)
    (st : ChannelState) (hlen : args.src.length ≤ vesalMaxSglNum) :
    Inside (submitAsyncWrites cfg env args st) := by
  unfold submitAsyncWrites
  split
  · exact inside_nil
  split
  · exact inside_nil
  split
  · exact inside_nil
  split
  · refine inside_append (fillBuffers_inside _ _ _ _ _ hlen) ?_
    split
    · rename_i hfill
      split
      · exact inside_nil
      split
      · exact (fillCypherBuffers_filled hlen hfill).writes
      · exact inside_loopWrites _ hlen
    · exact inside_nil
  · exact inside_nil

lemma codec_outside {st : EngineState} (hlen : vesalMaxSglNum < args.src.length)
    (h : (!checkSessionOption args || st.isFatal || qatRingFull cfg st) = false) :
    ⟨.srcBlocks, vesalMaxSglNum⟩ ∈ submitAsyncRequestWrites cfg env args st := by
  unfold submitAsyncRequestWrites
  rw [h, if_neg Bool.false_ne_true]
  refine mem_append_left _ (mem_map.mpr ⟨vesalMaxSglNum, mem_range.mpr hlen, rfl⟩)

lemma sglBlocks_outside (i : Nat) (src : List Nat) (srcLen : List UInt32) (hi : i ≤ vesalMaxSglNum)
    (h : vesalMaxSglNum < i + src.length) : ∃ fault, (sglBlocks i src srcLen).1 = .error fault := by
  induction src generalizing i srcLen with
  | nil => simp at h; omega
  | cons data src ih =>
    unfold sglBlocks
    split
    · exact ⟨_, rfl⟩
    · rename_i hlt
      cases srcLen with
      | nil => exact ⟨_, rfl⟩
      | cons len srcLen =>
        rw [length_cons] at h
        obtain ⟨fault, hfault⟩ := ih (i + 1) srcLen (by omega) (by omega)
        exact ⟨fault, by simp only [hfault]; rfl⟩

lemma sglBlocks_inside (i : Nat) (src : List Nat) (srcLen : List UInt32)
    (h : i + src.length ≤ vesalMaxSglNum) :
    Inside (sglBlocks i src srcLen).2 ∧
      ∀ blocks, (sglBlocks i src srcLen).1 = .ok blocks → blocks.length = src.length := by
  induction src generalizing i srcLen with
  | nil => exact ⟨inside_nil, fun blocks hblocks => by cases hblocks; rfl⟩
  | cons data src ih =>
    rw [length_cons] at h
    have hi : i < vesalMaxSglNum := by omega
    have hfirst : Inside [⟨.localBlocks, i⟩] := by
      intro w hw
      rw [mem_singleton.mp hw]
      exact hi
    unfold sglBlocks
    rw [if_neg (not_le.mpr hi)]
    cases srcLen with
    | nil => exact ⟨hfirst, fun blocks hblocks => by cases hblocks⟩
    | cons len srcLen =>
      obtain ⟨hrest, hblocks⟩ := ih (i + 1) srcLen (by omega)
      refine ⟨inside_append hfirst hrest, fun blocks heq => ?_⟩
      simp only at heq
      cases hsub : (sglBlocks (i + 1) src srcLen).1 with
      | error fault => simp [hsub, Except.map] at heq
      | ok rest =>
        simp only [hsub, Except.map, Except.ok.injEq] at heq
        rw [← heq, length_cons, length_cons, hblocks rest hsub]

lemma fillSrcWrites_ne_nil (dev : DmaUnit) (buf : QatBuf) (pool : PoolState) (hlen : vesalMaxSglNum < usrData.length)
    (htotal : totalSize usrData % 2 ^ 64 ≠ 0) : fillSrcWrites dev usrData 0 0 buf pool ≠ [] := by
  unfold fillSrcWrites
  rw [if_neg (by omega)]
  have hpos : 0 < usrData.length := by omega
  have hlast : usrData.length - 1 < usrData.length := by omega
  have hfirst : blockAt usrData 0 = .ok usrData[0] := by
    simp [blockAt, getElem?_eq_getElem hpos]
  have hend : findSglEndPoint usrData 0 = .ok (usrData.length - 1, usrData[usrData.length - 1].size) := by
    simp [findSglEndPoint, blockAt, getElem?_eq_getElem hlast, bind, Except.bind, pure, Except.pure]
  have hne : (0 : Nat) ≠ usrData.length - 1 := by
    rw [vesalMaxSglNum] at hlen
    omega
  have hpasses : usrData.length - 1 + 1 - 0 = (usrData.length - 1) + 1 := by omega
  simp only [findSglStartPoint, if_true, hfirst, hend, if_neg hne, hpasses]
  unfold fillSrcLoopWrites
  simp [hfirst, vesalMaxSglNum, fillOneBufferWrites]

lemma fillBuffersWrites_eq_nil_iff (dst : IOBlock) (srcBuf dstBuf : QatBuf) (pool : PoolState)
    (hlen : vesalMaxSglNum < usrData.length) :
    fillBuffersWrites dev usrData dst ⟨0, 0, 0, 0⟩ srcBuf dstBuf pool = [] ↔
      totalSize usrData % 2 ^ 64 = 0 ∧ dst.size = 0 := by
  by_cases htotal : totalSize usrData % 2 ^ 64 = 0
  · have hfill : fillSrc dev usrData 0 0 srcBuf pool = .ok (false, srcBuf, pool) := by
      unfold fillSrc
      rw [if_pos (by omega)]
    have hnone : fillSrcWrites dev usrData 0 0 srcBuf pool = [] := by
      unfold fillSrcWrites
      rw [if_pos (by omega)]
    simp only [fillBuffersWrites, hfill, hnone, htotal, true_and, nil_append]
    by_cases hdst : dst.size = 0
    · simp [fillDst, fillDstWrites, hdst]
    · simp [fillDstWrites, hdst, fillOneBufferWrites]
  · have hne := fillSrcWrites_ne_nil dev srcBuf pool hlen htotal
    simp only [fillBuffersWrites, append_eq_nil_iff, hne, htotal, false_and]

lemma codec_refused {st : EngineState}
    (h : (!checkSessionOption args || st.isFatal || qatRingFull cfg st) = true) :
    submitAsyncRequestWrites cfg env args st = [] ∧
      ∃ status, submitAsyncRequest cfg env args st = .ok (status, st) ∧ status ≠ .kOk := by
  refine ⟨by unfold submitAsyncRequestWrites; rw [if_pos h], ?_⟩
  unfold submitAsyncRequest
  dsimp only
  split
  · exact ⟨_, rfl, by decide⟩
  rename_i hoption
  split
  · exact ⟨_, rfl, by decide⟩
  rename_i hfatal
  split
  · exact ⟨_, rfl, by decide⟩
  rename_i hfull
  simp [hoption, hfatal, hfull] at h

lemma fillCypherBuffers_empty {args : CypherReqArgs} (dev : DmaUnit) (srcBuf dstBuf : QatBuf)
    (pool : PoolState) (htotal : totalSize args.src % 2 ^ 64 = 0) (hdst : args.dst.size = 0) :
    fillCypherBuffers dev args srcBuf dstBuf pool = .ok (false, srcBuf, dstBuf, pool) := by
  have hfill : fillSrc dev args.src 0 0 srcBuf pool = .ok (false, srcBuf, pool) := by
    unfold fillSrc
    rw [if_pos (by omega)]
  simp [fillCypherBuffers, hfill, fillDst, hdst, bind, Except.bind, pure, Except.pure]

lemma cypher_refused_iff {cfg : CypherConfig} {args : CypherReqArgs} (env : ChannelState.SubmitEnv)
    {st : ChannelState} (hlen : vesalMaxSglNum < args.src.length) (hopen : st.closed = false) :
    (submitAsyncWrites cfg env args st = [] ∧
      ∃ status st', submitAsync cfg env args st = .ok (status, st') ∧ status ≠ .kOk) ↔
    cypherRefuses cfg args st = true := by
  unfold submitAsyncWrites submitAsync cypherRefuses
  dsimp only
  by_cases hfull : (isChannelFull cfg st || st.reqRingQueue.isFull) = true
  · simp [hfull, hopen]
  rw [if_neg hfull, if_neg hfull]
  simp only [Bool.not_eq_true] at hfull
  simp only [hopen, hfull, Bool.not_false, Bool.true_and, Bool.false_or]
  cases hsession : sessionOf args st with
  | none => simp
  | some p =>
    cases hvalid : validateArgs args p.algorithm with
    | false => simp [hvalid]
    | true =>
      simp only [hvalid, Bool.not_true, Bool.false_eq_true, if_false, Bool.false_or]
      rcases hbufs : st.bufs with _ | ⟨srcBuf, _ | ⟨dstBuf, bufs⟩⟩
      · simp
      · simp
      · have hnum : decide ((srcBuf :: dstBuf :: bufs).length < 2) = false :=
          decide_eq_false (by simp)
        simp only [hnum, Bool.false_or, decide_eq_true_eq, append_eq_nil_iff,
          fillBuffersWrites_eq_nil_iff args.dst srcBuf dstBuf st.pool hlen]
        constructor
        · intro h
          exact h.1.1
        · rintro ⟨htotal, hdst⟩
          rw [fillCypherBuffers_empty cfg.dev srcBuf dstBuf st.pool htotal hdst]
          exact ⟨⟨⟨htotal, hdst⟩, rfl⟩, _, _, rfl, by decide⟩

lemma inBounds_of_blocks_le (h : s.blocks ≤ vesalMaxSglNum) : InBounds s := by
  refine ⟨?_, fun hlt => absurd h (not_le.mpr hlt)⟩
  cases s with
  | codecSubmitAsync cfg env args st =>
    exact inside_unless (codec_inside env st h)
  | codecSubmit cfg env args st =>
    exact inside_unless (codec_inside env.submit st h)
  | cypherSubmitAsync cfg env args st =>
    exact inside_unless (cypher_inside env st h)
  | submitCypherSGLReq cfg env src srcLen dst dstLen req st =>
    have hblocks : 0 + src.length ≤ vesalMaxSglNum := by
      rw [Nat.zero_add]
      exact h
    obtain ⟨hlocal, hlen⟩ := sglBlocks_inside 0 src srcLen hblocks
    have hopen : Inside (submitCypherSGLReqWrites cfg env src srcLen dst dstLen req st) := by
      refine inside_append hlocal ?_
      cases hsgl : (sglBlocks 0 src srcLen).1 with
      | error fault => exact inside_nil
      | ok blocks =>
        have hle : blocks.length ≤ vesalMaxSglNum := (hlen blocks hsgl).trans_le h
        exact cypher_inside env st hle
    simp only [Submission.writes]
    split
    · exact hlocal
    · exact hopen

lemma codec_inBounds_iff {env : EngineState.SubmitEnv} {st : EngineState} (hlen : vesalMaxSglNum < args.src.length)
    (hblocks : s.blocks = args.src.length)
    (hwrites : s.writes = if st.closed then [] else submitAsyncRequestWrites cfg env args st)
    (hclosed : st.closed = true → s.answer = none)
    (hanswer : ∀ status st', st.closed = false → submitAsyncRequest cfg env args st = .ok (status, st') →
      status ≠ .kOk → s.answer = some status) :
    InBounds s ↔ codecRefuses cfg args st = true := by
  unfold codecRefuses
  cases hopen : st.closed with
  | true =>
    simp only [Bool.not_true, Bool.false_and, Bool.false_eq_true, iff_false]
    intro h
    obtain ⟨-, status, hstatus, -⟩ := h.refused (by rwa [hblocks])
    rw [hclosed hopen] at hstatus
    cases hstatus
  | false =>
    rw [hopen, if_neg Bool.false_ne_true] at hwrites
    simp only [Bool.not_false, Bool.true_and]
    constructor
    · intro h
      rw [← Bool.not_eq_false]
      intro hnot
      have hmem := codec_outside env hlen hnot
      rw [← hwrites] at hmem
      exact absurd (h.index _ hmem) (lt_irrefl _)
    · intro hrefuses
      obtain ⟨hnone, status, hsubmit, hstatus⟩ := codec_refused env hrefuses
      have hnil : s.writes = [] := hwrites.trans hnone
      refine ⟨?_, fun _ => ⟨hnil, status, hanswer status st hopen hsubmit hstatus, hstatus⟩⟩
      rw [hnil]
      exact inside_nil

/-- A submission on a QAT channel stays inside the arrays, and answers a request with too many
blocks before it writes one, if and only if it has at most `VESAL_MAX_SGL_NUM` blocks or is
refused for another reason. -/
theorem submission_in_bounds_iff (s : Submission) :
    InBounds s ↔ s.blocks ≤ vesalMaxSglNum ∨ refusesEarly s = true := by
  by_cases hblocks : s.blocks ≤ vesalMaxSglNum
  · exact iff_of_true (inBounds_of_blocks_le hblocks) (Or.inl hblocks)
  have hlt := not_le.mp hblocks
  simp only [hblocks, false_or]
  cases s with
  | codecSubmitAsync cfg env args st =>
    refine codec_inBounds_iff hlt rfl rfl ?_ ?_
    · intro hclosed
      simp [Submission.answer, hclosed]
    · intro status st' hopen hsubmit _
      simp [Submission.answer, hopen, hsubmit, Except.toOption]
  | codecSubmit cfg env args st =>
    refine codec_inBounds_iff hlt rfl rfl ?_ ?_
    · intro hclosed
      simp [Submission.answer, CodecChannel.submit, hclosed]
    · intro status st' hopen hsubmit hstatus
      simp [Submission.answer, CodecChannel.submit, hopen, hsubmit, hstatus, CodecChannel.refused]
  | cypherSubmitAsync cfg env args st =>
    cases hopen : st.closed with
    | true =>
      simp only [refusesEarly, cypherRefuses, hopen, Bool.not_true, Bool.false_and, Bool.false_eq_true,
        iff_false]
      intro h
      obtain ⟨-, status, hstatus, -⟩ := h.refused hlt
      simp [Submission.answer, hopen] at hstatus
    | false =>
      rw [refusesEarly, ← cypher_refused_iff env hlt hopen]
      constructor
      · intro h
        obtain ⟨hnil, status, hstatus, hne⟩ := h.refused hlt
        simp only [Submission.writes, Submission.answer, hopen, Bool.false_eq_true, if_false] at hnil hstatus
        cases hsubmit : submitAsync cfg env args st with
        | error fault => simp [hsubmit, Except.toOption] at hstatus
        | ok result =>
          simp only [hsubmit, Except.toOption, Option.map_some, Option.some.injEq] at hstatus
          exact ⟨hnil, result.1, result.2, rfl, hstatus ▸ hne⟩
      · rintro ⟨hnil, status, st', hsubmit, hne⟩
        have hwrites : (Submission.cypherSubmitAsync cfg env args st).writes = [] := by
          simp [Submission.writes, hopen, hnil]
        refine ⟨?_, fun _ => ⟨hwrites, status, ?_, hne⟩⟩
        · rw [hwrites]
          exact inside_nil
        · simp [Submission.answer, hopen, hsubmit, Except.toOption]
  | submitCypherSGLReq cfg env src srcLen dst dstLen req st =>
    obtain ⟨fault, hfault⟩ := sglBlocks_outside 0 src srcLen (Nat.zero_le _) (by
      rw [Nat.zero_add]
      exact hlt)
    simp only [refusesEarly, Bool.false_eq_true, iff_false]
    intro h
    obtain ⟨-, status, hstatus, -⟩ := h.refused hlt
    simp [Submission.answer, submitCypherSGLReq, hfault, Except.toOption] at hstatus

def manyBlocks : CodecRequestArgs :=
  { sampleArgs 7 with src := List.replicate 33 eightByteBlock }

/-- A new codec channel takes 33 blocks and writes entry 32 of `src_blocks`. -/
theorem submission_outside_src_blocks :
    ¬ InBounds (.codecSubmitAsync (sampleChannel false) ⟨.kOk, 0, sampleHaEnv true⟩ manyBlocks
      (initEngine (sampleChannel false).toEngineConfig samplePool)) := by
  intro h
  have hmem : ⟨.srcBlocks, 32⟩ ∈ (Submission.codecSubmitAsync (sampleChannel false)
      ⟨.kOk, 0, sampleHaEnv true⟩ manyBlocks
      (initEngine (sampleChannel false).toEngineConfig samplePool)).writes :=
    by decide
  exact absurd (h.index _ hmem) (by decide)

end Vesal.Proofs
