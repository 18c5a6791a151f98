import Vesal.Proofs.CodecDelivery
import Vesal.Proofs.FillSrc

/-! # Submissions that fail -/

namespace Vesal.Proofs

open EngineState Library List Function InFlight

lemma releaseAll_append_left {ptrs : List Nat} {extra : List Extent} (h : ∀ e ∈ extra, e.start ∉ ptrs)
    (blocks : List Extent) : releaseAll ptrs (extra ++ blocks) = extra ++ releaseAll ptrs blocks := by
  induction ptrs generalizing blocks with
  | nil => rfl
  | cons ptr ptrs ih =>
    have hother : ∀ e ∈ extra, ¬(e.start == ptr) = true := by
      intro e he heq
      apply h e he
      rw [beq_iff_eq.mp heq]
      exact mem_cons_self
    unfold releaseAll
    rw [foldl_cons, foldl_cons, eraseP_append_right _ hother]
    apply ih
    intro e he hmem
    exact h e he (mem_cons_of_mem ptr hmem)

lemma releaseAll_concat (ptrs : List Nat) (block : Extent) {blocks : List Extent} (h : block.start ∉ ptrs) :
    releaseAll (ptrs ++ [block.start]) (block :: blocks) = releaseAll ptrs blocks := by
  have hleft : releaseAll ptrs ([block] ++ blocks) = [block] ++ releaseAll ptrs blocks := by
    apply releaseAll_append_left
    intro e he
    rw [mem_singleton.mp he]
    exact h
  unfold releaseAll at hleft ⊢
  rw [foldl_append, ← singleton_append, hleft]
  simp

def Untaken (caller : List Extent) (pool : PoolState) (a : Nat) : Prop :=
  (∃ e ∈ pool.allocated ++ caller, e.start ≤ a ∧ a < e.start + e.len) ∨
    ∀ e ∈ poolBlocks pool, a < e.start ∨ e.start + e.len ≤ a

structure Taking (dev : DmaUnit) (caller : List Extent) (buf : QatBuf) (n : Nat) (pool₀ pool : PoolState) : Prop where
  undo : releaseAll (copiedPtrs buf n) pool.allocated = pool₀.allocated
  owned : ∀ ptr ∈ copiedPtrs buf n, ∃ e ∈ pool.allocated, e.start = ptr ∧ 0 < e.len
  shared : dev.svmEnabled = true → pool.allocated = pool₀.allocated
  kept : ∀ a, Untaken caller pool₀ a → Untaken caller pool a ∧ pool.mem a = pool₀.mem a

section

variable {dev : DmaUnit} {caller : List Extent} {buf : QatBuf} {n : Nat} {pool₀ pool pool' : PoolState}

lemma taking_zero (dev : DmaUnit) (caller : List Extent) (buf : QatBuf) (pool : PoolState) :
    Taking dev caller buf 0 pool pool where
  undo := rfl
  owned := nofun
  shared _ := rfl
  kept _ h := ⟨h, rfl⟩

lemma copiedPtrs_setBuffer (buf : QatBuf) (n pData len : Nat) (dma : Bool) :
    copiedPtrs (setBuffer buf n pData len dma) n = copiedPtrs buf n := by
  have hcopied : copiedBuffers (setBuffer buf n pData len dma) n = copiedBuffers buf n := by
    apply filter_congr
    intro k hk
    have hne : k ≠ n := Nat.ne_of_lt (mem_range.mp hk)
    change (!Function.update buf.dmaAble n dma k) = _
    rw [update_of_ne hne]
  unfold copiedPtrs
  rw [hcopied]
  apply map_congr_left
  intro k hk
  have hne : k ≠ n := Nat.ne_of_lt (mem_range.mp (mem_filter.mp hk).1)
  change (Function.update buf.pBuffers n _ k).pData = _
  rw [update_of_ne hne]

lemma copiedPtrs_setBuffer_succ (buf : QatBuf) (n pData len : Nat) (dma : Bool) :
    copiedPtrs (setBuffer buf n pData len dma) (n + 1) = copiedPtrs buf n ++ if dma then [] else [pData] := by
  have hdma : (setBuffer buf n pData len dma).dmaAble n = dma := update_self _ _ _
  have hbuf : (setBuffer buf n pData len dma).pBuffers n = ⟨pData, len⟩ := update_self _ _ _
  have hold := copiedPtrs_setBuffer buf n pData len dma
  unfold copiedPtrs at hold ⊢
  rw [copiedBuffers_succ, map_append, hold, hdma]
  cases dma with
  | true => rfl
  | false =>
    congr 1
    simp [hbuf]

variable {a : Nat} {extra : List Extent} {usrData : IOVector} {result : Bool × QatBuf × PoolState}

lemma Untaken.mono (h : ∀ e ∈ pool.allocated, e ∈ pool'.allocated) (hblocks : poolBlocks pool' ⊆ poolBlocks pool)
    (ha : Untaken caller pool a) : Untaken caller pool' a := by
  rcases ha with ⟨e, he, hin⟩ | hout
  · left
    refine ⟨e, ?_, hin⟩
    rcases mem_append.mp he with he | he
    · exact mem_append_left _ (h e he)
    · exact mem_append_right _ he
  · right
    intro e he
    exact hout e (hblocks he)

lemma writeBytes_untaken {block : Extent} {size : Nat} (hfresh : pool.Fresh caller size block)
    (hblock : block ∈ poolBlocks pool) (bytes : List UInt8) (hlen : bytes.length ≤ block.len)
    (ha : Untaken caller pool a) : writeBytes pool.mem block.start bytes a = pool.mem a := by
  apply writeBytes_outside
  rcases ha with ⟨e, he, hin⟩ | hout
  · have hapart := hfresh.2.2.2 e he
    unfold Extent.Disjoint at hapart
    omega
  · have hblockOut := hout block hblock
    omega

lemma Taking.fillOneBuffer (h : Taking dev caller buf n pool₀ pool) (addr len : Nat) (copy : Bool) :
    ∃ ok buf' pool', fillOneBuffer dev caller addr len copy n buf pool = (ok, buf', pool') ∧
      Taking dev caller buf' (if ok then n + 1 else n) pool₀ pool' := by
  have hblocks := poolBlocks_fillOneBuffer dev caller addr len copy n buf pool
  rcases fillOneBuffer_cases dev caller addr len copy n buf pool with
    hfill | ⟨hsvm, answers, hfill⟩ | ⟨hsvm, block, answers, hfresh, hfill⟩
  · refine ⟨_, _, _, hfill, ?_⟩
    rw [if_pos rfl]
    have hptrs : copiedPtrs (setBuffer buf n addr len true) (n + 1) = copiedPtrs buf n := by
      rw [copiedPtrs_setBuffer_succ, if_pos rfl, append_nil]
    refine ⟨?_, ?_, h.shared, h.kept⟩
    · rw [hptrs]
      exact h.undo
    · rw [hptrs]
      exact h.owned
  · refine ⟨_, _, _, hfill, ?_⟩
    rw [hfill] at hblocks
    rw [if_neg Bool.false_ne_true]
    refine ⟨?_, ?_, h.shared, ?_⟩
    · rw [copiedPtrs_setBuffer]
      exact h.undo
    · rw [copiedPtrs_setBuffer]
      exact h.owned
    · intro a ha
      obtain ⟨hkept, hmem⟩ := h.kept a ha
      refine ⟨?_, hmem⟩
      apply Untaken.mono _ hblocks hkept
      intro e he
      exact he
  · refine ⟨_, _, _, hfill, ?_⟩
    rw [hfill] at hblocks
    rw [if_pos rfl]
    obtain ⟨-, hpos, hsize, hapart⟩ := id hfresh
    have hnew : block.start ∉ copiedPtrs buf n := by
      intro hmem
      obtain ⟨e, he, hstart, hlen⟩ := h.owned _ hmem
      have hdisjoint := hapart e (mem_append_left _ he)
      unfold Extent.Disjoint at hdisjoint
      omega
    have hptrs : copiedPtrs (setBuffer buf n block.start len false) (n + 1) = copiedPtrs buf n ++ [block.start] := by
      rw [copiedPtrs_setBuffer_succ, if_neg Bool.false_ne_true]
    refine ⟨?_, ?_, ?_, ?_⟩
    · rw [hptrs]
      exact (releaseAll_concat _ block hnew).trans h.undo
    · rw [hptrs]
      intro ptr hptr
      rcases mem_append.mp hptr with hptr | hptr
      · obtain ⟨e, he, hstart, hlen⟩ := h.owned ptr hptr
        exact ⟨e, mem_cons_of_mem block he, hstart, hlen⟩
      · rw [mem_singleton.mp hptr]
        exact ⟨block, mem_cons_self, rfl, hpos⟩
    · intro habs
      rw [hsvm] at habs
      cases habs
    · intro a ha
      obtain ⟨hkept, hmem⟩ := h.kept a ha
      refine ⟨hkept.mono (fun e he => mem_cons_of_mem block he) hblocks, ?_⟩
      have hblock : block ∈ poolBlocks pool := hblocks (mem_append_right _ mem_cons_self)
      rw [← hmem]
      cases copy with
      | false => rfl
      | true =>
        apply writeBytes_untaken hfresh hblock _ _ hkept
        rw [readBytes_length]
        exact hsize

lemma Taking.free (h : Taking dev caller buf buf.numBuffers pool₀ pool)
    (hextra : ∀ e ∈ extra, e.start ∉ copiedPtrs buf buf.numBuffers)
    (hpool : pool'.allocated = extra ++ pool.allocated) :
    (freeDataIfNecessary dev buf pool').2.allocated = extra ++ pool₀.allocated := by
  cases hsvm : dev.svmEnabled with
  | false => rw [freeDataIfNecessary_allocated hsvm, hpool, releaseAll_append_left hextra, h.undo]
  | true =>
    unfold freeDataIfNecessary
    rw [hsvm, if_pos rfl, hpool, h.shared hsvm]

lemma Taking.freeAll (h : Taking dev caller buf buf.numBuffers pool₀ pool) (hpool : pool'.allocated = pool.allocated) :
    (freeDataIfNecessary dev buf pool').2.allocated = pool₀.allocated := by
  have hnil : ∀ e ∈ ([] : List Extent), e.start ∉ copiedPtrs buf buf.numBuffers := forall_mem_nil _
  exact h.free hnil hpool

structure SrcTaken (dev : DmaUnit) (caller : List Extent) (pool : PoolState) (result : Bool × QatBuf × PoolState) :
    Prop where
  taken : result.1 = true → Taking dev caller result.2.1 result.2.1.numBuffers pool result.2.2
  undone : result.1 = false → result.2.2.allocated = pool.allocated
  mem : ∀ a, Untaken caller pool a → result.2.2.mem a = pool.mem a

lemma fillSrcLoop_taken {b e firstUnit firstUnitLen dmaEndLen passes i : Nat}
    (h : Taking dev usrData.extents buf buf.numBuffers pool₀ pool)
    (hloop : fillSrcLoop dev usrData b e firstUnit firstUnitLen dmaEndLen passes i buf pool = .ok result) :
    SrcTaken dev usrData.extents pool₀ result := by
  induction passes generalizing i buf pool with
  | zero =>
    cases hloop
    exact ⟨fun _ => h, nofun, fun a ha => (h.kept a ha).2⟩
  | succ passes ih =>
    obtain ⟨addr, len, ok, buf₁, pool₁, hpiece, hcase⟩ := fillSrcLoop_cases hloop
    obtain ⟨ok, buf', pool', hfill, htaking⟩ := h.fillOneBuffer addr len true
    have hnum := fillOneBuffer_numBuffers dev usrData.extents addr len true buf.numBuffers buf pool
    rw [hfill] at hpiece hnum
    cases hpiece
    rcases hcase with ⟨rfl, rfl⟩ | ⟨rfl, hrest⟩
    · rw [if_neg Bool.false_ne_true, ← hnum] at htaking
      refine ⟨nofun, fun _ => ?_, ?_⟩
      · exact htaking.freeAll rfl
      · intro a ha
        rw [freeDataIfNecessary_mem]
        exact (htaking.kept a ha).2
    · rw [if_pos rfl, ← hnum] at htaking
      exact ih ⟨htaking.undo, htaking.owned, htaking.shared, htaking.kept⟩ hrest

lemma fillSrc_taken {front back : Nat} (h : fillSrc dev usrData front back buf pool = .ok result) :
    SrcTaken dev usrData.extents pool result := by
  rcases fillSrc_cases h with rfl | ⟨addr, len, ok, buf₁, pool₁, hpiece, rfl⟩ |
    ⟨b, e, firstUnit, firstUnitLen, endLen, n, i, hloop⟩
  · exact ⟨nofun, fun _ => rfl, fun _ _ => rfl⟩
  · obtain ⟨ok, buf', pool', hfill, htaking⟩ := (taking_zero dev usrData.extents buf pool).fillOneBuffer addr len true
    rw [hfill] at hpiece
    cases hpiece
    cases ok with
    | true =>
      refine ⟨fun _ => ⟨htaking.undo, htaking.owned, htaking.shared, htaking.kept⟩, nofun, ?_⟩
      intro a ha
      exact (htaking.kept a ha).2
    | false => exact ⟨nofun, fun _ => htaking.undo, fun a ha => (htaking.kept a ha).2⟩
  · exact fillSrcLoop_taken (taking_zero dev usrData.extents { buf with numBuffers := 0 } pool) hloop

structure DstTaken (dev : DmaUnit) (buf : QatBuf) (extra : List Extent) (pool : PoolState) : Prop where
  ptrs : copiedPtrs buf buf.numBuffers = extra.map Extent.start
  shared : dev.svmEnabled = true → extra = []
  apart : ∀ e ∈ extra, 0 < e.len ∧ ∀ e' ∈ pool.allocated, e.Disjoint e'

lemma fillDst_cases (dev : DmaUnit) (caller : List Extent) (dst : IOBlock) (front back : Nat) (buf : QatBuf)
    (pool : PoolState) :
    ∃ ok buf' pool', fillDst dev caller dst front back buf pool = (ok, buf', pool') ∧ pool'.mem = pool.mem ∧
      (ok = false ∧ pool'.allocated = pool.allocated ∨
        ∃ extra, ok = true ∧ DstTaken dev buf' extra pool ∧ pool'.allocated = extra ++ pool.allocated) := by
  unfold fillDst
  split
  · exact ⟨_, _, _, rfl, rfl, Or.inl ⟨rfl, rfl⟩⟩
  · generalize (dst.size + 2 ^ 65 - front - back) % 2 ^ 32 = len
    generalize hone : { buf with dstUsrData := dst.data, dstUsrDataLen := dst.size, numBuffers := 1 } = one
    have hptrs : ∀ pData dma, copiedPtrs (setBuffer one 0 pData len dma) (setBuffer one 0 pData len dma).numBuffers =
        if dma then [] else [pData] := by
      intro pData dma
      have hnum : (setBuffer one 0 pData len dma).numBuffers = 0 + 1 := by
        rw [← hone]
        rfl
      rw [hnum, copiedPtrs_setBuffer_succ]
      rfl
    rcases fillOneBuffer_cases dev caller (dst.data + front) len false 0 one pool with
      hfill | ⟨-, answers, hfill⟩ | ⟨hsvm, block, answers, hfresh, hfill⟩
    · exact ⟨_, _, _, hfill, rfl, Or.inr ⟨[], rfl, ⟨hptrs _ true, fun _ => rfl, nofun⟩, rfl⟩⟩
    · exact ⟨_, _, _, hfill, rfl, Or.inl ⟨rfl, rfl⟩⟩
    · refine ⟨_, _, _, hfill, rfl, Or.inr ⟨[block], rfl, ⟨hptrs _ false, ?_, ?_⟩, rfl⟩⟩
      · intro habs
        rw [hsvm] at habs
        cases habs
      · intro e he
        rw [mem_singleton.mp he]
        refine ⟨hfresh.2.1, ?_⟩
        intro e' he'
        exact hfresh.2.2.2 e' (mem_append_left _ he')

lemma releaseAll_starts (extra blocks : List Extent) : releaseAll (extra.map Extent.start) (extra ++ blocks) = blocks := by
  induction extra with
  | nil => rfl
  | cons e extra ih =>
    unfold releaseAll at ih ⊢
    rw [map_cons, foldl_cons, cons_append, eraseP_cons]
    simp only [beq_self_eq_true, cond_true]
    exact ih

lemma DstTaken.free (h : DstTaken dev buf extra pool) {blocks : List Extent}
    (hpool : pool'.allocated = extra ++ blocks) : (freeDataIfNecessary dev buf pool').2.allocated = blocks := by
  cases hsvm : dev.svmEnabled with
  | true =>
    unfold freeDataIfNecessary
    rw [hsvm, if_pos rfl, hpool, h.shared hsvm]
    rfl
  | false => rw [freeDataIfNecessary_allocated hsvm, h.ptrs, hpool, releaseAll_starts]

lemma Taking.notMem (h : Taking dev caller buf n pool₀ pool) {e : Extent} (hpos : 0 < e.len)
    (hapart : ∀ e' ∈ pool.allocated, e.Disjoint e') : e.start ∉ copiedPtrs buf n := by
  intro hmem
  obtain ⟨e', he', hstart, hlen⟩ := h.owned _ hmem
  have hdisjoint := hapart e' he'
  unfold Extent.Disjoint at hdisjoint
  omega

end

structure BuffersTaken (dev : DmaUnit) (args : CodecRequestArgs) (pool : PoolState)
    (result : Bool × QatBuf × QatBuf × PoolState) : Prop where
  failed : result.1 = false → result.2.2.2.allocated = pool.allocated
  taken : result.1 = true →
    (freeDataIfNecessary dev result.2.2.1 (freeDataIfNecessary dev result.2.1 result.2.2.2).2).2.allocated =
      pool.allocated
  mem : ∀ a, Untaken args.src.extents pool a → result.2.2.2.mem a = pool.mem a

section

variable {dev : DmaUnit} {args : CodecRequestArgs} {srcBuf dstBuf srcBuf' dstBuf' : QatBuf}
  {pool pool₁ pool₂ : PoolState}

lemma fillSrc_total (dev : DmaUnit) (h32 : args.src.length ≤ vesalMaxSglNum) (buf : QatBuf) (pool : PoolState) :
    ∃ result, (if args.direction = .kComp then fillSrc dev args.src 0 0 buf pool
      else fillSrc dev args.src (headerFooterSize args.codecAlgorithm).1 (headerFooterSize args.codecAlgorithm).2
        buf pool) = .ok result ∧ SrcTaken dev args.src.extents pool result := by
  have hsmall : (headerFooterSize args.codecAlgorithm).1 < 64 ∧ (headerFooterSize args.codecAlgorithm).2 < 64 := by
    cases args.codecAlgorithm with
    | _ => decide
  split
  · obtain ⟨ok, buf', pool', hfill, -⟩ := (fillSrc_correct_iff dev args.src 0 0 buf pool h32 (by omega)
      (by omega)).mpr (by omega)
    exact ⟨_, hfill, fillSrc_taken hfill⟩
  · obtain ⟨ok, buf', pool', hfill, -⟩ := (fillSrc_correct_iff dev args.src _ _ buf pool h32
      (hsmall.1.trans (by norm_num)) (hsmall.2.trans (by norm_num))).mpr (by omega)
    exact ⟨_, hfill, fillSrc_taken hfill⟩

lemma fillDst_request (dev : DmaUnit) (args : CodecRequestArgs) (caller : List Extent) (buf : QatBuf) (pool : PoolState) :
    ∃ front back, (if args.direction = .kComp then
        fillDst dev caller args.dst (headerFooterSize args.codecAlgorithm).1 (headerFooterSize args.codecAlgorithm).2
          buf pool
      else fillDst dev caller args.dst 0 0 buf pool) = fillDst dev caller args.dst front back buf pool := by
  split
  · exact ⟨_, _, rfl⟩
  · exact ⟨0, 0, rfl⟩

lemma fillRequestBuffers_eq {okSrc okDst : Bool}
    (hsrc : (if args.direction = .kComp then fillSrc dev args.src 0 0 srcBuf pool
      else fillSrc dev args.src (headerFooterSize args.codecAlgorithm).1 (headerFooterSize args.codecAlgorithm).2
        srcBuf pool) = .ok (okSrc, srcBuf', pool₁))
    (hdst : (if args.direction = .kComp then
        fillDst dev (args.src.extents ++ [args.dst.extent]) args.dst (headerFooterSize args.codecAlgorithm).1
          (headerFooterSize args.codecAlgorithm).2 dstBuf pool₁
      else fillDst dev (args.src.extents ++ [args.dst.extent]) args.dst 0 0 dstBuf pool₁) =
        (okDst, dstBuf', pool₂)) :
    fillRequestBuffers dev args srcBuf dstBuf pool =
      .ok (if okSrc && okDst then (true, srcBuf', dstBuf', pool₂)
        else if okSrc then (false, (freeDataIfNecessary dev srcBuf' pool₂).1, dstBuf',
          (freeDataIfNecessary dev srcBuf' pool₂).2)
        else if okDst then (false, srcBuf', freeDataIfNecessary dev dstBuf' pool₂)
        else (false, srcBuf', dstBuf', pool₂)) := by
  unfold fillRequestBuffers
  by_cases hdir : args.direction = .kComp
  · rw [if_pos hdir] at hsrc hdst
    simp only [hdir, if_true, bind, Except.bind, hsrc, hdst]
    cases okSrc <;> cases okDst <;> rfl
  · rw [if_neg hdir] at hsrc hdst
    simp only [hdir, if_false, bind, Except.bind, hsrc, hdst]
    cases okSrc <;> cases okDst <;> rfl

lemma fillRequestBuffers_taken (dev : DmaUnit) (h32 : args.src.length ≤ vesalMaxSglNum) (srcBuf dstBuf : QatBuf)
    (pool : PoolState) :
    ∃ result, fillRequestBuffers dev args srcBuf dstBuf pool = .ok result ∧ BuffersTaken dev args pool result := by
  obtain ⟨⟨okSrc, srcBuf', pool₁⟩, hfillSrc, hsrc⟩ := fillSrc_total dev h32 srcBuf pool
  obtain ⟨front, back, hoffsets⟩ := fillDst_request dev args (args.src.extents ++ [args.dst.extent]) dstBuf pool₁
  obtain ⟨okDst, dstBuf', pool₂, hfillDst, hmem, hdst⟩ := fillDst_cases dev (args.src.extents ++ [args.dst.extent])
    args.dst front back dstBuf pool₁
  rw [hfillDst] at hoffsets
  have hmem₂ : ∀ a, Untaken args.src.extents pool a → pool₂.mem a = pool.mem a := by
    intro a ha
    rw [hmem]
    exact hsrc.mem a ha
  refine ⟨_, fillRequestBuffers_eq hfillSrc hoffsets, ?_⟩
  cases okSrc with
  | false =>
    have hsame : pool₁.allocated = pool.allocated := hsrc.undone rfl
    rcases hdst with ⟨rfl, hnone⟩ | ⟨extra, rfl, hdst, hextra⟩
    · exact ⟨fun _ => hnone.trans hsame, nofun, hmem₂⟩
    · refine ⟨fun _ => ?_, nofun, ?_⟩
      · exact (hdst.free hextra).trans hsame
      · intro a ha
        refine Eq.trans ?_ (hmem₂ a ha)
        exact congrFun (freeDataIfNecessary_mem dev dstBuf' pool₂) a
  | true =>
    have htaking : Taking dev args.src.extents srcBuf' srcBuf'.numBuffers pool pool₁ := hsrc.taken rfl
    rcases hdst with ⟨rfl, hnone⟩ | ⟨extra, rfl, hdst, hextra⟩
    · refine ⟨fun _ => ?_, nofun, ?_⟩
      · exact htaking.freeAll hnone
      · intro a ha
        refine Eq.trans ?_ (hmem₂ a ha)
        exact congrFun (freeDataIfNecessary_mem dev srcBuf' pool₂) a
    · refine ⟨nofun, fun _ => ?_, hmem₂⟩
      apply hdst.free
      apply htaking.free _ hextra
      intro e he
      exact htaking.notMem (hdst.apart e he).1 (hdst.apart e he).2

end

/-- What a submission that failed leaves as it was. User memory is memory that is in use, or that the
pool does not hand out. -/
structure SubmissionUndone (args : CodecRequestArgs) (st st' : EngineState) : Prop where
  nextReqId : st'.nextReqId = st.nextReqId
  nextRecvReqId : st'.nextRecvReqId = st.nextRecvReqId
  inQatNum : st'.inQatNum = st.inQatNum
  timers : st'.timers = st.timers
  codecResults : st'.codecResults = st.codecResults
  valid : ∀ slot, (st'.metas slot).valid = (st.metas slot).valid
  bufs : st'.bufs.length = st.bufs.length
  allocated : st'.pool.allocated = st.pool.allocated
  mem : ∀ a, Untaken args.src.extents st.pool a → st'.pool.mem a = st.pool.mem a

def preparedState (slot : Nat) (m : RequestMeta FrameMeta) (cbs : Nat → RequestCbContext) (bufs : List QatBuf)
    (pool : PoolState) (st : EngineState) : EngineState :=
  st.onInFlight fun s => { s.setMeta slot m with cbs := cbs, bufs := bufs, pool := pool }

structure PreparedUndoable (cfg : EngineConfig) (args : CodecRequestArgs) (st : EngineState) (ok : Bool)
    (m : RequestMeta FrameMeta) (cb : RequestCbContext) (bufs : List QatBuf) (pool : PoolState) : Prop where
  valid : m.valid = (st.metas (cfg.size.slotOf st.nextReqId)).valid
  mem : ∀ a, Untaken args.src.extents st.pool a → pool.mem a = st.pool.mem a
  failed : ok = false → bufs.length = st.bufs.length ∧ pool.allocated = st.pool.allocated
  taken : ok = true → ∃ srcBuf dstBuf, cb.srcQat = some srcBuf ∧ cb.dstQat = some dstBuf ∧
    bufs.length + 2 = st.bufs.length ∧
    (freeDataIfNecessary cfg.dev dstBuf (freeDataIfNecessary cfg.dev srcBuf pool).2).2.allocated = st.pool.allocated

section

variable {cfg : EngineConfig} {args : CodecRequestArgs} {st : EngineState}

lemma setRequest_bufs (cb : RequestCbContext) (opts : CodecChannelOption) (reqId : Nat) (args : CodecRequestArgs)
    (srcBuf dstBuf : QatBuf) :
    (cb.setRequest opts reqId args srcBuf dstBuf).srcQat = some srcBuf ∧
      (cb.setRequest opts reqId args srcBuf dstBuf).dstQat = some dstBuf := by
  unfold RequestCbContext.setRequest
  split <;> exact ⟨rfl, rfl⟩

variable {srcBuf dstBuf : QatBuf} {bufs : List QatBuf} {pool : PoolState} {slot : Nat}

lemma prepareCommonReqData_filled {ok : Bool} {srcBuf' dstBuf' : QatBuf} (h32 : args.src.length ≤ vesalMaxSglNum)
    (hbufs : st.bufs = srcBuf :: dstBuf :: bufs)
    (hfill : fillRequestBuffers cfg.dev args srcBuf dstBuf st.pool = .ok (ok, srcBuf', dstBuf', pool)) :
    let slot := cfg.size.slotOf st.nextReqId
    prepareCommonReqData cfg args st =
      .ok (ok, preparedState slot (storeFormat args (storeRequest st.nextReqId args (st.metas slot)))
        (if ok then Function.update st.cbs (st.cbPool slot)
          ((st.cbs (st.cbPool slot)).setRequest cfg.opts st.nextReqId args srcBuf' dstBuf') else st.cbs)
        (if ok then bufs else dstBuf' :: srcBuf' :: bufs) pool st) := by
  intro slot
  unfold prepareCommonReqData
  rw [if_neg (not_lt.mpr h32)]
  simp only [onInFlight, setMeta, hbufs, hfill]
  cases ok with
  | false => simp [preparedState, onInFlight, setMeta, slot]
  | true => simp [preparedState, onInFlight, setMeta, setCb, slot]

lemma prepareCommonReqData_short (h32 : args.src.length ≤ vesalMaxSglNum) (hbufs : st.bufs.length < 2) :
    let slot := cfg.size.slotOf st.nextReqId
    prepareCommonReqData cfg args st =
      .ok (false, preparedState slot (storeRequest st.nextReqId args (st.metas slot)) st.cbs st.bufs st.pool st) := by
  unfold prepareCommonReqData
  rw [if_neg (not_lt.mpr h32)]
  dsimp only
  split
  · rename_i srcBuf dstBuf bufs heq
    change st.bufs = srcBuf :: dstBuf :: bufs at heq
    rw [heq, length_cons, length_cons] at hbufs
    omega
  · rfl

lemma prepareCommonReqData_undoable (cfg : EngineConfig) (st : EngineState) (h32 : args.src.length ≤ vesalMaxSglNum) :
    let slot := cfg.size.slotOf st.nextReqId
    ∃ ok m cbs bufs pool, prepareCommonReqData cfg args st = .ok (ok, preparedState slot m cbs bufs pool st) ∧
      PreparedUndoable cfg args st ok m (cbs (st.cbPool slot)) bufs pool := by
  intro slot
  by_cases hshort : st.bufs.length < 2
  · refine ⟨false, _, _, _, _, prepareCommonReqData_short h32 hshort, rfl, fun _ _ => rfl, ?_, nofun⟩
    exact fun _ => ⟨rfl, rfl⟩
  · obtain ⟨srcBuf, dstBuf, bufs, hbufs⟩ : ∃ srcBuf dstBuf bufs, st.bufs = srcBuf :: dstBuf :: bufs := by
      match hlist : st.bufs with
      | [] => simp [hlist] at hshort
      | [_] => simp [hlist] at hshort
      | srcBuf :: dstBuf :: bufs => exact ⟨srcBuf, dstBuf, bufs, rfl⟩
    obtain ⟨⟨ok, srcBuf', dstBuf', pool⟩, hfill, htaken⟩ := fillRequestBuffers_taken cfg.dev h32 srcBuf dstBuf st.pool
    refine ⟨ok, _, _, _, _, prepareCommonReqData_filled h32 hbufs hfill, rfl, htaken.mem, ?_, ?_⟩
    · rintro rfl
      refine ⟨?_, htaken.failed rfl⟩
      rw [hbufs]
      rfl
    · rintro rfl
      obtain ⟨hsrc, hdst⟩ := setRequest_bufs (st.cbs (st.cbPool slot)) cfg.opts st.nextReqId args srcBuf' dstBuf'
      refine ⟨srcBuf', dstBuf', ?_, ?_, ?_, htaken.taken rfl⟩
      · rw [if_pos rfl, update_self]
        exact hsrc
      · rw [if_pos rfl, update_self]
        exact hdst
      · rw [if_pos rfl, hbufs]
        rfl

lemma preparedState_valid {m : RequestMeta FrameMeta} {cbs : Nat → RequestCbContext}
    (hvalid : m.valid = (st.metas slot).valid) (a : Nat) :
    ((preparedState slot m cbs bufs pool st).metas a).valid = (st.metas a).valid := by
  change (Function.update st.metas slot m a).valid = _
  by_cases ha : a = slot
  · rw [ha, update_self]
    exact hvalid
  · rw [update_of_ne ha]

lemma cleanUpReqData_invalid {s : InFlight FrameMeta RequestCbContext} {c : Nat} (dev : DmaUnit)
    (hinvalid : (s.metas slot).valid = false) (hsrc : (s.cbs c).srcQat = some srcBuf)
    (hdst : (s.cbs c).dstQat = some dstBuf) :
    ∃ buf buf' cbs, s.cleanUpReqData dev (some slot) (some c) =
      { s with
        bufs := buf' :: buf :: s.bufs
        pool := (freeDataIfNecessary dev dstBuf (freeDataIfNecessary dev srcBuf s.pool).2).2
        cbs := cbs } := by
  refine ⟨(freeDataIfNecessary dev srcBuf s.pool).1,
    (freeDataIfNecessary dev dstBuf (freeDataIfNecessary dev srcBuf s.pool).2).1,
    Function.update s.cbs c (CallbackContext.cleared (s.cbs c)), ?_⟩
  unfold cleanUpReqData
  dsimp only
  rw [dropMeta_of_invalid hinvalid]
  unfold resetCb
  change setCb _ c _ = _
  simp only [CallbackContext.srcBuf, CallbackContext.dstBuf, hsrc, hdst, returnBuf]
  rfl

lemma handleSubmitError_noHa (hha : isHaEnabled cfg.opts.haPolicy = false) (env : SubmitEnv) (st : EngineState) :
    ∃ isFatal, handleSubmitError cfg env st = { st with isFatal := isFatal } := by
  unfold handleSubmitError
  rw [hha, if_neg Bool.false_ne_true]
  split
  · exact ⟨true, rfl⟩
  · exact ⟨st.isFatal, rfl⟩

lemma submitAsyncRequest_undone (hha : isHaEnabled cfg.opts.haPolicy = false)
    (hring : Standing cfg.size st.toInFlight) (env : SubmitEnv) (h32 : args.src.length ≤ vesalMaxSglNum) :
    ∃ status st', submitAsyncRequest cfg env args st = .ok (status, st') ∧
      (status ≠ .kOk → SubmissionUndone args st st') := by
  have hsame : SubmissionUndone args st st :=
    ⟨rfl, rfl, rfl, rfl, rfl, fun _ => rfl, rfl, rfl, fun _ _ => rfl⟩
  unfold submitAsyncRequest
  dsimp only
  split
  · exact ⟨_, _, rfl, fun _ => hsame⟩
  split
  · exact ⟨_, _, rfl, fun _ => hsame⟩
  split
  · exact ⟨_, _, rfl, fun _ => hsame⟩
  rename_i hfull
  have hroom : st.inQatNum < cfg.size.maxInQatSize := by
    simpa [qatRingFull] using hfull
  have hinvalid := hring.next_invalid hroom
  obtain ⟨ok, m, cbs, bufs, pool, hprepare, hprepared⟩ := prepareCommonReqData_undoable cfg st h32
  have hvalid : ∀ a, ((preparedState (cfg.size.slotOf st.nextReqId) m cbs bufs pool st).metas a).valid =
      (st.metas a).valid := preparedState_valid hprepared.valid
  rw [hprepare]
  cases ok with
  | false =>
    -- the slot was written, but it is not valid
    have hdrop := dropMeta_of_invalid ((hvalid _).trans hinvalid)
    obtain ⟨hbufs, hallocated⟩ := hprepared.failed rfl
    refine ⟨_, _, rfl, fun _ => ?_⟩
    simp only [onInFlight, cleanUpReqData, hdrop]
    exact ⟨rfl, rfl, rfl, rfl, rfl, hvalid, hbufs, hallocated, hprepared.mem⟩
  | true =>
    dsimp only
    split
    · exact ⟨_, _, rfl, fun hne => absurd rfl hne⟩
    · obtain ⟨srcBuf, dstBuf, hsrc, hdst, hbufs, hallocated⟩ := hprepared.taken rfl
      obtain ⟨isFatal, herror⟩ := handleSubmitError_noHa hha env
        (preparedState (cfg.size.slotOf st.nextReqId) m cbs bufs pool st)
      obtain ⟨buf, buf', cbs', hclean⟩ := cleanUpReqData_invalid cfg.dev ((hvalid _).trans hinvalid) hsrc hdst
      refine ⟨_, _, rfl, fun _ => ?_⟩
      have hcontext : (preparedState (cfg.size.slotOf st.nextReqId) m cbs bufs pool st).cbPool = st.cbPool := rfl
      rw [herror, hcontext]
      simp only [onInFlight]
      rw [hclean]
      refine ⟨rfl, rfl, rfl, rfl, rfl, hvalid, hbufs, hallocated, ?_⟩
      intro a ha
      refine Eq.trans ?_ (hprepared.mem a ha)
      dsimp only
      rw [freeDataIfNecessary_mem, freeDataIfNecessary_mem]
      rfl

end

/-- A submission of at most 32 blocks returns, and unless it returns `kOk` the engine is as it was. -/
theorem failed_submission_undone (cfg : EngineConfig) (hha : isHaEnabled cfg.opts.haPolicy = false) (pool : PoolState)
    (run : CodecRun) (hruns : CodecRuns cfg (fun _ _ => True) (initCodecRun cfg pool) run)
    (hopen : run.engine.closed = false) (env : SubmitEnv) (args : CodecRequestArgs)
    (h32 : args.src.length ≤ vesalMaxSglNum) :
    ∃ status st', submitAsyncRequest cfg env args run.engine = .ok (status, st') ∧
      (status ≠ .kOk → SubmissionUndone args run.engine st') :=
  submitAsyncRequest_undone hha (kept_of_open hruns hopen).ring env h32

def copyingConfig : EngineConfig := { sampleConfig .kNone with dev := noDma }

/-- There is a block for the source, but none for the destination. -/
theorem failed_submission_undone_oneBlock :
    ∃ st', submitAsyncRequest copyingConfig ⟨.kOk, 0, sampleHaEnv true⟩ (sampleArgs 7)
        (initCodecRun copyingConfig onePoolBlock).engine = .ok (.kResourceBusy, st') ∧
      SubmissionUndone (sampleArgs 7) (initCodecRun copyingConfig onePoolBlock).engine st' := by
  obtain ⟨status, st', hsubmit, hundone⟩ := failed_submission_undone copyingConfig rfl onePoolBlock
    (initCodecRun copyingConfig onePoolBlock) Relation.ReflTransGen.refl rfl ⟨.kOk, 0, sampleHaEnv true⟩
    (sampleArgs 7) (by decide)
  have hstatus : (submitAsyncRequest copyingConfig ⟨.kOk, 0, sampleHaEnv true⟩ (sampleArgs 7)
      (initCodecRun copyingConfig onePoolBlock).engine).toOption.map Prod.fst = some .kResourceBusy := rfl
  rw [hsubmit] at hstatus
  cases hstatus
  exact ⟨st', hsubmit, hundone (by decide)⟩

end Vesal.Proofs
