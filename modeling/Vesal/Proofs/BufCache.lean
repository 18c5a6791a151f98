import Vesal.QatBufCache
import Vesal.Proofs.FillSrc

/-! # The counter and the buffers of the cache -/

namespace Vesal.Proofs

open Library List QatBufCache Except

def Represented (cache : QatBufCache) : Prop :=
  cache.inCacheNum = cache.bufs.length ∧ ∀ one ∈ cache.bufs, one.numBuffers = 0

def DstCopied (dev : DmaUnit) (request : CacheRequest) : Prop :=
  request.dstOffsets.1 + request.dstOffsets.2 < request.dst.size ∧ dev.svmEnabled = false ∧
    dev.lookUpAddrAcrossBound (request.dst.data + request.dstOffsets.1)
      (request.dst.size - request.dstOffsets.1 - request.dstOffsets.2) ≠ 1

def MetaGranted (metaSize : Nat) (mallocs : Nat → Bool) : Nat → Nat → PoolState → Prop
  | 0, _, _ => True
  | n + 1, i, pool => mallocs i = true ∧ ∃ block answers, pool.answers = some block :: answers ∧
      pool.Fresh [] metaSize block ∧
      MetaGranted metaSize mallocs n (i + 1)
        { pool with allocated := block :: pool.allocated, answers := answers }

def FirstMetaRefused (metaSize : Nat) (mallocs : Nat → Bool) (pool : PoolState) : Prop :=
  mallocs 0 = false ∨ (pool.allocate [] metaSize).1 = none

/-- The counter can count the buffers, `Init` gets all its memory or not even the first block, and
a destination that goes through the pool gets its block if there are buffers for the request. -/
def CacheAnswered (cfg : CacheConfig) (r : BufCacheRun) : CacheEvent → Prop
  | .init mallocs answers => r.cache.isInited = false → r.cache.bufSize < 2 ^ 32 ∧
      (MetaGranted cfg.metaSize mallocs r.cache.bufSize 0 (r.answering answers).pool ∨
        FirstMetaRefused cfg.metaSize mallocs (r.answering answers).pool)
  | .submit request srcAnswers dstAnswer _ => r.cache.isInited = true → 2 ≤ r.cache.bufs.length →
      DstCopied cfg.dev request → ∃ block, dstAnswer = some block ∧
        PoolState.Fresh { r.pool with allocated := srcAnswers.reduceOption ++ r.pool.allocated } request.caller
          (request.dst.size - request.dstOffsets.1 - request.dstOffsets.2) block
  | _ => True

section

variable {cfg : CacheConfig} {dev : DmaUnit} {request : CacheRequest} {buf : QatBuf} {pool pool' : PoolState}

def SrcClean (pool : PoolState) (result : Bool × QatBuf × PoolState) : Prop :=
  (result.1 = false → result.2.1.numBuffers = 0) ∧ poolBlocks result.2.2 ⊆ poolBlocks pool

variable {usrData : IOVector} {result : Bool × QatBuf × PoolState}

lemma fillSrcLoop_clean {b e firstUnit firstUnitLen dmaEndLen n i : Nat}
    (h : fillSrcLoop dev usrData b e firstUnit firstUnitLen dmaEndLen n i buf pool = .ok result) :
    SrcClean pool result := by
  induction n generalizing i buf pool with
  | zero =>
    cases h
    exact ⟨nofun, Subset.refl _⟩
  | succ n ih =>
    obtain ⟨addr, len, ok, buf₁, pool₁, hfill, hcase⟩ := fillSrcLoop_cases h
    have hblocks := poolBlocks_fillOneBuffer dev usrData.extents addr len true buf.numBuffers buf pool
    rw [hfill] at hblocks
    rcases hcase with ⟨-, rfl⟩ | ⟨-, hrest⟩
    · exact ⟨fun _ => freeDataIfNecessary_numBuffers dev buf₁ pool₁,
        Subset.trans (poolBlocks_freeDataIfNecessary dev buf₁ pool₁) hblocks⟩
    · obtain ⟨hnum, hnext⟩ := ih hrest
      exact ⟨hnum, Subset.trans hnext hblocks⟩

lemma fillSrc_clean {front back : Nat} (h : fillSrc dev usrData front back buf pool = .ok result)
    (hbuf : buf.numBuffers = 0) :
    SrcClean pool result := by
  rcases fillSrc_cases h with rfl | ⟨addr, len, ok, buf₁, pool₁, hfill, rfl⟩ |
    ⟨b, e, firstUnit, firstUnitLen, endLen, n, i, hloop⟩
  · exact ⟨fun _ => hbuf, Subset.refl _⟩
  · have hnum := fillOneBuffer_numBuffers dev usrData.extents addr len true 0 buf pool
    have hblocks := poolBlocks_fillOneBuffer dev usrData.extents addr len true 0 buf pool
    rw [hfill] at hnum hblocks
    cases ok with
    | false => exact ⟨fun _ => hnum.trans hbuf, hblocks⟩
    | true => exact ⟨nofun, hblocks⟩
  · exact fillSrcLoop_clean hloop

lemma dstOffsets_le (request : CacheRequest) : request.dstOffsets.1 + request.dstOffsets.2 ≤ 64 := by
  cases request with
  | cypher args => exact Nat.zero_le 64
  | codec args =>
    unfold CacheRequest.dstOffsets
    dsimp only
    split
    · cases args.codecAlgorithm with
      | _ => decide
    · decide

lemma fillDst_clean (hbuf : buf.numBuffers = 0)
    (hanswer : DstCopied dev request → ∃ block, pool.answers = [some block] ∧
      pool.Fresh request.caller (request.dst.size - request.dstOffsets.1 - request.dstOffsets.2) block)
    (h : (fillDst dev request.caller request.dst request.dstOffsets.1 request.dstOffsets.2 buf pool).1 = false) :
    (fillDst dev request.caller request.dst request.dstOffsets.1 request.dstOffsets.2 buf pool).2.1.numBuffers = 0 := by
  have hle := dstOffsets_le request
  have hsize := request.dst.size_lt
  unfold fillDst at h ⊢
  split
  · exact hbuf
  · rename_i hlt
    rw [if_neg hlt] at h
    have hlen : (request.dst.size + 2 ^ 65 - request.dstOffsets.1 - request.dstOffsets.2) % 2 ^ 32 =
        request.dst.size - request.dstOffsets.1 - request.dstOffsets.2 := by omega
    rw [hlen] at h
    exfalso
    unfold fillOneBuffer at h
    dsimp only at h
    split at h
    · cases h
    · rename_i hdma
      rw [Bool.or_eq_true, beq_iff_eq, not_or] at hdma
      obtain ⟨block, hans, hfresh⟩ := hanswer ⟨by omega, by simpa using hdma.1, hdma.2⟩
      unfold PoolState.allocate at h
      rw [hans] at h
      dsimp only at h
      rw [if_pos hfresh] at h
      cases h

end

structure CacheKept (cfg : CacheConfig) (held : Nat) (r : BufCacheRun) : Prop where
  boundaries : ∀ cache ∈ r.boundaries, Represented cache
  current : Represented r.cache
  inited : r.cache.isInited = true
  size : r.cache.bufSize = (new cfg.maxInQatSize).bufSize
  small : r.cache.bufSize < 2 ^ 32
  count : r.cache.bufs.length + held = r.cache.bufSize

section

variable {cfg : CacheConfig} {held held' : Nat} {r r' : BufCacheRun} {one : MetaBuf} {cache : QatBufCache}

lemma CacheKept.congr (h : CacheKept cfg held r) (hcache : r'.cache = r.cache)
    (hboundaries : r'.boundaries = r.boundaries) : CacheKept cfg held r' := by
  obtain ⟨cache, pool, inFlight, boundaries⟩ := r'
  subst hcache hboundaries
  exact ⟨h.boundaries, h.current, h.inited, h.size, h.small, h.count⟩

lemma CacheKept.pass (h : CacheKept cfg held r) (hcache : Represented cache)
    (hinited : cache.isInited = r.cache.isInited) (hsize : cache.bufSize = r.cache.bufSize)
    (hcount : cache.bufs.length + held' = r.cache.bufSize) : CacheKept cfg held' (r.pass cache) where
  boundaries c hc := by
    rcases mem_cons.mp hc with rfl | hc
    · exact hcache
    · exact h.boundaries c hc
  current := hcache
  inited := hinited.trans h.inited
  size := hsize.trans h.size
  small := by
    have hsmall := h.small
    rw [← hsize] at hsmall
    exact hsmall
  count := by
    rw [← hsize] at hcount
    exact hcount

lemma CacheKept.getOne (h : CacheKept cfg held r) :
    (∃ one cache, r.getOne = .ok (some one, r.pass cache) ∧ one.numBuffers = 0 ∧
      CacheKept cfg (held + 1) (r.pass cache)) ∨
    r.getOne = .ok (none, r.pass r.cache) ∧ CacheKept cfg held (r.pass r.cache) := by
  obtain ⟨hnum, hempty⟩ := h.current
  have hsmall := h.small
  have hcount := h.count
  cases hbufs : r.cache.bufs with
  | nil =>
    right
    constructor
    · rw [hbufs] at hnum
      simp [BufCacheRun.getOne, QatBufCache.getOne, hbufs, hnum, bind, Except.bind, pure, Except.pure]
    · exact h.pass h.current rfl rfl hcount
  | cons one next =>
    left
    rw [hbufs, length_cons] at hnum hcount
    refine ⟨one, { r.cache with bufs := next, inCacheNum := (r.cache.inCacheNum + 2 ^ 32 - 1) % 2 ^ 32 }, ?_,
      hempty one (by rw [hbufs]; exact mem_cons_self), ?_⟩
    · unfold BufCacheRun.getOne QatBufCache.getOne
      rw [hbufs]
      rfl
    · apply h.pass
      · constructor
        · dsimp only
          omega
        · intro b hb
          apply hempty
          rw [hbufs]
          exact mem_cons_of_mem one hb
      · rfl
      · rfl
      · dsimp only
        omega

lemma CacheKept.returnOne (h : CacheKept cfg (held + 1) r) (hone : one.numBuffers = 0) :
    CacheKept cfg held (r.returnOne (some one)) := by
  have hcount := h.count
  have hsmall := h.small
  apply h.pass
  · constructor
    · have hnum := h.current.1
      unfold QatBufCache.returnOne
      rw [length_cons]
      dsimp only
      omega
    · exact forall_mem_cons.mpr ⟨hone, h.current.2⟩
  · rfl
  · rfl
  · unfold QatBufCache.returnOne
    rw [length_cons]
    omega

lemma CacheKept.returnNone (h : CacheKept cfg held r) : CacheKept cfg held (r.returnOne none) :=
  h.pass h.current rfl rfl h.count

lemma CacheKept.freeData (h : CacheKept cfg held r) (one : MetaBuf) :
    CacheKept cfg held (r.freeDataIfNecessary cfg one).2 ∧ (r.freeDataIfNecessary cfg one).1.numBuffers = 0 := by
  constructor
  · apply h.congr
    · rfl
    · rfl
  · exact freeDataIfNecessary_numBuffers cfg.dev one.toQatBuf r.pool

lemma CacheKept.resetCb (h : CacheKept cfg (held + 2) r) (pair : MetaBuf × MetaBuf) :
    CacheKept cfg held (r.resetCb cfg pair) := by
  obtain ⟨hsrc, hsrcEmpty⟩ := h.freeData pair.1
  obtain ⟨hdst, hdstEmpty⟩ := (hsrc.returnOne hsrcEmpty).freeData pair.2
  exact hdst.returnOne hdstEmpty

@[simp] lemma resetCb_inFlight (cfg : CacheConfig) (r : BufCacheRun) (pair : MetaBuf × MetaBuf) :
    (r.resetCb cfg pair).inFlight = r.inFlight := rfl

lemma CacheKept.resetAll (pairs : List (MetaBuf × MetaBuf)) (h : CacheKept cfg (2 * pairs.length) r) :
    CacheKept cfg 0 (pairs.foldl (fun r held => r.resetCb cfg held) r) := by
  induction pairs generalizing r with
  | nil => exact h
  | cons pair pairs ih =>
    exact ih (h.resetCb pair)

end

section

variable {cfg : CacheConfig} {held : Nat} {r r' : BufCacheRun} {request : CacheRequest} {src dst : MetaBuf}
  {srcAnswers : List (Option Extent)} {dstAnswer : Option Extent} {accepted : Bool}

def CacheInv (cfg : CacheConfig) (r : BufCacheRun) : Prop :=
  (r.cache = .new cfg.maxInQatSize ∧ r.inFlight = [] ∧ ∀ cache ∈ r.boundaries, Represented cache) ∨
    CacheKept cfg (2 * r.inFlight.length) r

def CacheSafe (cfg : CacheConfig) (outcome : Except CacheFault BufCacheRun) : Prop :=
  (∃ fault, outcome = .error (.sgl fault)) ∨ ∃ r, outcome = .ok r ∧ CacheInv cfg r

lemma CacheKept.fillSrc (h : CacheKept cfg held r) (hsrc : src.numBuffers = 0) (request : CacheRequest) :
    (∃ fault, r.fillSrc cfg request src = .error (.sgl fault)) ∨
    ∃ ok src' r', r.fillSrc cfg request src = .ok (ok, src', r') ∧ (ok = false → src'.numBuffers = 0) ∧
      poolBlocks r'.pool ⊆ poolBlocks r.pool ∧ r'.inFlight = r.inFlight ∧ CacheKept cfg held r' := by
  unfold BufCacheRun.fillSrc
  cases hfill : Vesal.fillSrc cfg.dev request.src request.srcOffsets.1 request.srcOffsets.2 src.toQatBuf r.pool with
  | error fault => exact Or.inl ⟨fault, rfl⟩
  | ok result =>
    obtain ⟨hnum, hblocks⟩ := fillSrc_clean hfill hsrc
    refine Or.inr ⟨_, _, _, rfl, hnum, hblocks, rfl, ?_⟩
    apply h.congr
    · rfl
    · rfl

lemma CacheKept.fillDst (h : CacheKept cfg held r) (hdst : dst.numBuffers = 0)
    (hanswer : DstCopied cfg.dev request → ∃ block, r.pool.answers = [some block] ∧
      r.pool.Fresh request.caller (request.dst.size - request.dstOffsets.1 - request.dstOffsets.2) block) :
    CacheKept cfg held (r.fillDst cfg request dst).2.2 ∧
      ((r.fillDst cfg request dst).1 = false → (r.fillDst cfg request dst).2.1.numBuffers = 0) ∧
      (r.fillDst cfg request dst).2.2.inFlight = r.inFlight := by
  refine ⟨?_, ?_, rfl⟩
  · apply h.congr
    · rfl
    · rfl
  · exact fillDst_clean hdst hanswer

lemma CacheKept.freeIf (h : CacheKept cfg held r) {ok : Bool} (hone : ok = false → src.numBuffers = 0) :
    CacheKept cfg held (if ok then r.freeDataIfNecessary cfg src else (src, r)).2 ∧
      (if ok then r.freeDataIfNecessary cfg src else (src, r)).1.numBuffers = 0 ∧
      (if ok then r.freeDataIfNecessary cfg src else (src, r)).2.inFlight = r.inFlight := by
  cases ok with
  | false => exact ⟨h, hone rfl, rfl⟩
  | true =>
    obtain ⟨hkept, hempty⟩ := h.freeData src
    exact ⟨hkept, hempty, rfl⟩

lemma dst_answered (h : CacheAnswered cfg r (.submit request srcAnswers dstAnswer accepted))
    (hinited : r.cache.isInited = true) (hroom : 2 ≤ r.cache.bufs.length) {pool : PoolState}
    (hpool : poolBlocks pool ⊆ srcAnswers.reduceOption ++ r.pool.allocated) (hcopied : DstCopied cfg.dev request) :
    ∃ block, [dstAnswer] = [some block] ∧
      PoolState.Fresh { pool with answers := [dstAnswer] } request.caller
        (request.dst.size - request.dstOffsets.1 - request.dstOffsets.2) block := by
  obtain ⟨block, rfl, hstart, hlen, hsize, hapart⟩ := h hinited hroom hcopied
  refine ⟨block, rfl, hstart, hlen, hsize, ?_⟩
  intro e he
  apply hapart
  rcases mem_append.mp he with he | he
  · exact mem_append_left _ (hpool (mem_append_right _ he))
  · exact mem_append_right _ he

lemma CacheKept.submit (h : CacheKept cfg (2 * r.inFlight.length) r)
    (hanswered : CacheAnswered cfg r (.submit request srcAnswers dstAnswer accepted)) :
    CacheSafe cfg (r.submit cfg request srcAnswers dstAnswer accepted) := by
  unfold BufCacheRun.submit
  rcases h.getOne with ⟨src, cache₁, hgetSrc, hsrc, hone⟩ | ⟨hgetSrc, hone⟩
  · rw [hgetSrc]
    simp only [bind, Except.bind]
    rcases hone.getOne with ⟨dst, cache₂, hgetDst, hdst, htwo⟩ | ⟨hgetDst, htwo⟩
    · rw [hgetDst]
      dsimp only
      have hready : CacheKept cfg (2 * r.inFlight.length + 2) (((r.pass cache₁).pass cache₂).answering srcAnswers) := by
        apply htwo.congr
        · rfl
        · rfl
      rcases hready.fillSrc hsrc request with
        ⟨fault, hfill⟩ | ⟨fillSrcR, src', r₃, hfill, hsrcEmpty, hblocks, hflight, hthree⟩
      · left
        rw [hfill]
        exact ⟨fault, rfl⟩
      · right
        rw [hfill]
        dsimp only
        have hdstReady : CacheKept cfg (2 * r.inFlight.length + 2) (r₃.answering [dstAnswer]) := by
          apply hthree.congr
          · rfl
          · rfl
        have hroom : 2 ≤ r.cache.bufs.length := by
          have hcount := h.count
          have hcount' := htwo.count
          have hsize := htwo.size.trans h.size.symm
          omega
        obtain ⟨hfour, hdstEmpty, hflight'⟩ :=
          hdstReady.fillDst hdst (dst_answered hanswered h.inited hroom hblocks)
        generalize (r₃.answering [dstAnswer]).fillDst cfg request dst = filled at hfour hdstEmpty hflight' ⊢
        obtain ⟨fillDstR, dst', r₄⟩ := filled
        have hsame : r₄.inFlight = r.inFlight := hflight'.trans hflight
        split
        · obtain ⟨hfive, hsrcFreed, hflightSrc⟩ := hfour.freeIf hsrcEmpty
          generalize (if fillSrcR then r₄.freeDataIfNecessary cfg src' else (src', r₄)) = freed
            at hfive hsrcFreed hflightSrc ⊢
          obtain ⟨src'', r₅⟩ := freed
          obtain ⟨hsix, hdstFreed, hflightDst⟩ := hfive.freeIf hdstEmpty
          generalize (if fillDstR then r₅.freeDataIfNecessary cfg dst' else (dst', r₅)) = freed
            at hsix hdstFreed hflightDst ⊢
          obtain ⟨dst'', r₆⟩ := freed
          have hback := (hsix.returnOne hsrcFreed).returnOne hdstFreed
          refine ⟨_, rfl, Or.inr ?_⟩
          have hlen : ((r₆.returnOne (some src'')).returnOne (some dst'')).inFlight = r.inFlight :=
            (hflightDst.trans hflightSrc).trans hsame
          rw [hlen]
          exact hback
        · split
          · refine ⟨_, rfl, Or.inr ?_⟩
            rw [hsame, length_append, length_singleton, Nat.mul_succ]
            apply hfour.congr
            · rfl
            · rfl
          · refine ⟨_, rfl, Or.inr ?_⟩
            rw [resetCb_inFlight, hsame]
            exact hfour.resetCb (src', dst')
    · rw [hgetDst]
      exact Or.inr ⟨_, rfl, Or.inr (htwo.returnOne hsrc).returnNone⟩
  · rw [hgetSrc]
    simp only [bind, Except.bind]
    rcases hone.getOne with ⟨dst, cache₂, hgetDst, hdst, htwo⟩ | ⟨hgetDst, htwo⟩
    · rw [hgetDst]
      exact Or.inr ⟨_, rfl, Or.inr (htwo.returnNone.returnOne hdst)⟩
    · rw [hgetDst]
      exact Or.inr ⟨_, rfl, Or.inr htwo.returnNone.returnNone⟩

end

section

variable {cfg : CacheConfig} {r : BufCacheRun} {mallocs : Nat → Bool} {metaSize : Nat}

lemma clearLoop_eq (bufs : List MetaBuf) (hempty : ∀ one ∈ bufs, one.numBuffers = 0) (hlen : bufs.length < 2 ^ 32)
    (pool : PoolState) : ∃ pool', clearLoop bufs bufs.length pool = .ok (0, pool') := by
  induction bufs generalizing pool with
  | nil => exact ⟨pool, rfl⟩
  | cons one next ih =>
    have hone := hempty one mem_cons_self
    rw [length_cons] at hlen
    have hpred : ((one :: next).length + 2 ^ 32 - 1) % 2 ^ 32 = next.length := by
      rw [length_cons]
      omega
    have hfree : one.freeMeta pool = .ok (pool.deallocate one.pPrivateMetaData) := by
      unfold MetaBuf.freeMeta
      rw [if_neg (not_not.mpr hone)]
    obtain ⟨pool', hloop⟩ := ih (fun b hb => hempty b (mem_cons_of_mem one hb)) (by omega)
      (pool.deallocate one.pPrivateMetaData)
    refine ⟨pool', ?_⟩
    rw [clearLoop, hfree, hpred]
    exact hloop

variable {cache : QatBufCache} {pool : PoolState}

lemma clear_eq (h : Represented cache) (hlen : cache.bufs.length < 2 ^ 32) (pool : PoolState) :
    ∃ pool', cache.clear pool = .ok (⟨[], 0, false, 0, cache.bufSize⟩, pool') := by
  obtain ⟨pool', hloop⟩ := clearLoop_eq cache.bufs h.2 hlen pool
  refine ⟨pool', ?_⟩
  unfold clear
  rw [h.1, hloop]
  rfl

lemma CacheKept.close (h : CacheKept cfg (2 * r.inFlight.length) r) : CacheSafe cfg (r.close cfg) := by
  have hreset := CacheKept.resetAll r.inFlight h
  unfold BufCacheRun.close
  dsimp only
  generalize r.inFlight.foldl (fun r held => r.resetCb cfg held) r = r₁ at hreset ⊢
  have hlen : r₁.cache.bufs.length < 2 ^ 32 := by
    have hcount := hreset.count
    have hsmall := hreset.small
    omega
  obtain ⟨pool', hclear⟩ := clear_eq hreset.current hlen r₁.pool
  right
  rw [hclear]
  refine ⟨_, rfl, Or.inl ⟨?_, rfl, ?_⟩⟩
  · rw [hreset.size]
    rfl
  · exact forall_mem_cons.mpr ⟨⟨rfl, nofun⟩, hreset.boundaries⟩

lemma initMeta_granted {i : Nat} {block : Extent} {answers : List (Option Extent)} (hmalloc : mallocs i = true)
    (hanswers : pool.answers = some block :: answers) (hfresh : pool.Fresh [] metaSize block) :
    MetaBuf.initMeta metaSize (mallocs i) pool =
      (some ⟨⟨0, fun _ => ⟨0, 0⟩, fun _ => false, 0, 0⟩, block.start⟩,
        { pool with allocated := block :: pool.allocated, answers := answers }) := by
  unfold MetaBuf.initMeta PoolState.allocate
  rw [hmalloc, hanswers]
  simp [hfresh]

lemma initLoop_granted (n i : Nat) (bufs : List MetaBuf) (pool : PoolState)
    (hbufs : ∀ one ∈ bufs, one.numBuffers = 0) (h : MetaGranted metaSize mallocs n i pool) :
    ∃ bufs' pool', initLoop metaSize mallocs n i bufs pool = (true, bufs', pool') ∧
      bufs'.length = n + bufs.length ∧ ∀ one ∈ bufs', one.numBuffers = 0 := by
  induction n generalizing i bufs pool with
  | zero => exact ⟨bufs, pool, rfl, (Nat.zero_add _).symm, hbufs⟩
  | succ n ih =>
    obtain ⟨hmalloc, block, answers, hanswers, hfresh, hrest⟩ := h
    rw [initLoop, initMeta_granted hmalloc hanswers hfresh]
    dsimp only
    obtain ⟨bufs', pool', hloop, hlen, hempty⟩ := ih (i + 1)
      (⟨⟨0, fun _ => ⟨0, 0⟩, fun _ => false, 0, 0⟩, block.start⟩ :: bufs) _ (by
        exact forall_mem_cons.mpr ⟨rfl, hbufs⟩) hrest
    refine ⟨bufs', pool', hloop, ?_, hempty⟩
    rw [hlen, length_cons]
    omega

lemma init_granted (hnew : cache = .new cfg.maxInQatSize) (h : MetaGranted metaSize mallocs cache.bufSize 0 pool) :
    ∃ bufs pool', cache.init metaSize mallocs pool =
        .ok (true, ⟨bufs, metaSize, true, cache.bufSize % 2 ^ 32, cache.bufSize⟩, pool') ∧
      bufs.length = cache.bufSize ∧ ∀ one ∈ bufs, one.numBuffers = 0 := by
  have hbufs : cache.bufs = [] := by rw [hnew]; rfl
  obtain ⟨bufs, pool', hloop, hlen, hempty⟩ := initLoop_granted cache.bufSize 0 cache.bufs pool
    (by rw [hbufs]; nofun) h
  refine ⟨bufs, pool', ?_, ?_, hempty⟩
  · unfold init
    dsimp only
    rw [hloop]
    rfl
  · rw [hlen, hbufs]
    rfl

lemma init_refused (hnew : cache = .new cfg.maxInQatSize) (hpos : cache.bufSize ≠ 0)
    (h : FirstMetaRefused metaSize mallocs pool) :
    ∃ pool', cache.init metaSize mallocs pool = .ok (false, .new cfg.maxInQatSize, pool') ∧
      pool'.allocated = pool.allocated := by
  have hmeta : ∃ pool', MetaBuf.initMeta metaSize (mallocs 0) pool = (none, pool') ∧
      pool'.allocated = pool.allocated := by
    unfold MetaBuf.initMeta
    cases hmalloc : mallocs 0 with
    | false => exact ⟨pool, rfl, rfl⟩
    | true =>
      have hnone := h.resolve_left (by rw [hmalloc]; exact Bool.noConfusion)
      rcases allocate_cases pool [] metaSize with ⟨answers, hal⟩ | ⟨block, answers, -, hal⟩
      · rw [hal]
        exact ⟨_, rfl, rfl⟩
      · rw [hal] at hnone
        cases hnone
  obtain ⟨pool', hfirst, hallocated⟩ := hmeta
  have hloop : initLoop metaSize mallocs cache.bufSize 0 cache.bufs pool = (false, cache.bufs, pool') := by
    obtain ⟨n, hn⟩ := Nat.exists_eq_succ_of_ne_zero hpos
    rw [hn, initLoop, hfirst]
  refine ⟨pool', ?_, hallocated⟩
  unfold init
  dsimp only
  rw [hloop]
  subst hnew
  rfl

lemma init_safe (hnew : r.cache = .new cfg.maxInQatSize) (hflight : r.inFlight = [])
    (hboundaries : ∀ cache ∈ r.boundaries, Represented cache) (hsmall : r.cache.bufSize < 2 ^ 32)
    (h : MetaGranted cfg.metaSize mallocs r.cache.bufSize 0 r.pool ∨ FirstMetaRefused cfg.metaSize mallocs r.pool) :
    CacheSafe cfg (r.init cfg mallocs) := by
  have hgranted : MetaGranted cfg.metaSize mallocs r.cache.bufSize 0 r.pool → CacheSafe cfg (r.init cfg mallocs) := by
    intro hmeta
    obtain ⟨bufs, pool', hinit, hlen, hempty⟩ := init_granted hnew hmeta
    right
    unfold BufCacheRun.init
    rw [hinit]
    have hrep : Represented ⟨bufs, cfg.metaSize, true, r.cache.bufSize % 2 ^ 32, r.cache.bufSize⟩ := by
      refine ⟨?_, hempty⟩
      dsimp only
      rw [Nat.mod_eq_of_lt hsmall, hlen]
    refine ⟨_, rfl, Or.inr ?_⟩
    constructor
    · exact forall_mem_cons.mpr ⟨hrep, hboundaries⟩
    · exact hrep
    · rfl
    · change r.cache.bufSize = _
      rw [hnew]
    · exact hsmall
    · change bufs.length + 2 * r.inFlight.length = r.cache.bufSize
      rw [hflight, hlen]
      rfl
  rcases h with h | h
  · exact hgranted h
  · by_cases hzero : r.cache.bufSize = 0
    · apply hgranted
      rw [hzero]
      trivial
    · obtain ⟨pool', hinit, -⟩ := init_refused hnew hzero h
      right
      unfold BufCacheRun.init
      rw [hinit]
      refine ⟨_, rfl, Or.inl ⟨rfl, hflight, ?_⟩⟩
      exact forall_mem_cons.mpr ⟨⟨rfl, nofun⟩, hboundaries⟩

end

section

variable {cfg : CacheConfig} {r : BufCacheRun} {event : CacheEvent}

lemma CacheInv.step (h : CacheInv cfg r) (hanswered : CacheAnswered cfg r event) :
    CacheSafe cfg (cacheStep cfg r event) := by
  rcases h with ⟨hnew, hflight, hboundaries⟩ | hkept
  · have hinited : r.cache.isInited = false := by rw [hnew]; rfl
    have hsame : CacheSafe cfg (.ok r) := Or.inr ⟨r, rfl, Or.inl ⟨hnew, hflight, hboundaries⟩⟩
    cases event with
    | init mallocs answers =>
      unfold cacheStep
      dsimp only
      rw [hinited, if_neg Bool.false_ne_true]
      exact init_safe hnew hflight hboundaries (hanswered hinited).1 (hanswered hinited).2
    | submit request srcAnswers dstAnswer accepted =>
      unfold cacheStep
      dsimp only
      rw [hinited, if_neg Bool.false_ne_true]
      exact hsame
    | reset k =>
      unfold cacheStep
      rw [hflight]
      exact hsame
    | close =>
      have hclear : r.cache.clear r.pool = .ok (.new cfg.maxInQatSize, r.pool) := by
        rw [hnew]
        rfl
      right
      unfold cacheStep BufCacheRun.close
      rw [hflight]
      dsimp only [foldl_nil]
      rw [hclear]
      refine ⟨_, rfl, Or.inl ⟨rfl, rfl, ?_⟩⟩
      exact forall_mem_cons.mpr ⟨⟨rfl, nofun⟩, hboundaries⟩
  · have hinited := hkept.inited
    cases event with
    | init mallocs answers =>
      unfold cacheStep
      dsimp only
      rw [if_pos hinited]
      exact Or.inr ⟨r, rfl, Or.inr hkept⟩
    | submit request srcAnswers dstAnswer accepted =>
      unfold cacheStep
      dsimp only
      rw [if_pos hinited]
      exact hkept.submit hanswered
    | reset k =>
      unfold cacheStep
      dsimp only
      cases hget : r.inFlight[k]? with
      | none => exact Or.inr ⟨r, rfl, Or.inr hkept⟩
      | some held =>
        obtain ⟨hlt, -⟩ := List.getElem?_eq_some_iff.mp hget
        refine Or.inr ⟨_, rfl, Or.inr ?_⟩
        rw [resetCb_inFlight]
        dsimp only
        rw [length_eraseIdx_of_lt hlt]
        apply CacheKept.resetCb
        have hheld : 2 * (r.inFlight.length - 1) + 2 = 2 * r.inFlight.length := by omega
        rw [hheld]
        apply hkept.congr
        · rfl
        · rfl
    | close => exact hkept.close

lemma cacheInv_of_runs {pool : PoolState}
    (hruns : Runs (cacheStep cfg) (CacheAnswered cfg) (BufCacheRun.start cfg pool) r) : CacheInv cfg r := by
  apply hruns.invariant (P := CacheInv cfg)
  · refine Or.inl ⟨rfl, rfl, ?_⟩
    intro cache hcache
    rw [mem_singleton.mp hcache]
    exact ⟨rfl, nofun⟩
  · intro s ev s' hinv hanswered hstep
    rcases hinv.step hanswered with ⟨fault, hfault⟩ | ⟨s₁, hok, hinv'⟩
    · rw [hfault] at hstep
      cases hstep
    · rw [hok] at hstep
      cases hstep
      exact hinv'

end

/-- In a run whose steps get the memory they need the cache is as it should be at every call, no
check fails, and `Init` without memory returns `false` and keeps nothing. -/
theorem bufCache_represented_if_answered (cfg : CacheConfig) (pool : PoolState) (r : BufCacheRun)
    (hruns : Runs (cacheStep cfg) (CacheAnswered cfg) (BufCacheRun.start cfg pool) r) :
    (∀ cache ∈ r.boundaries, Represented cache) ∧
      (∀ event, CacheAnswered cfg r event → ∀ fault, cacheStep cfg r event = .error fault →
        ∃ f, fault = .sgl f) ∧
      ∀ mallocs answers, r.cache.isInited = false → CacheAnswered cfg r (.init mallocs answers) →
        ¬MetaGranted cfg.metaSize mallocs r.cache.bufSize 0 (r.answering answers).pool →
        ∃ cache pool', r.cache.init cfg.metaSize mallocs (r.answering answers).pool = .ok (false, cache, pool') ∧
          cache.bufs = [] ∧ pool'.allocated = r.pool.allocated := by
  have hinv := cacheInv_of_runs hruns
  refine ⟨?_, ?_, ?_⟩
  · rcases hinv with ⟨-, -, hboundaries⟩ | hkept
    · exact hboundaries
    · exact hkept.boundaries
  · intro event hanswered fault hfault
    rcases hinv.step hanswered with ⟨f, hsgl⟩ | ⟨r', hok, -⟩
    · rw [hsgl] at hfault
      cases hfault
      exact ⟨f, rfl⟩
    · rw [hok] at hfault
      cases hfault
  · intro mallocs answers hclosed hanswered hrefused
    have hnew : r.cache = .new cfg.maxInQatSize := by
      rcases hinv with ⟨hnew, -, -⟩ | hkept
      · exact hnew
      · rw [hkept.inited] at hclosed
        cases hclosed
    have hpos : r.cache.bufSize ≠ 0 := by
      intro hzero
      rw [hzero] at hrefused
      exact hrefused trivial
    obtain ⟨pool', hinit, hallocated⟩ := init_refused hnew hpos ((hanswered hclosed).2.resolve_left hrefused)
    exact ⟨_, pool', hinit, rfl, hallocated⟩

def oneRequestCache : CacheConfig := ⟨noDma, 1, 16⟩

def hashRequest : CacheRequest :=
  .cypher ⟨[eightByteBlock], { eightByteBlock with data := 0x2000 }, .kEncrypt, 0, 0, none⟩

def noBlocks : PoolState := ⟨fun _ => 0, [], []⟩

def twoMetaBlocks : List (Option Extent) := [some ⟨0x9000, 16⟩, some ⟨0x9010, 16⟩]

/-- A request in flight whose data is in two blocks of the pool. -/
theorem bufCache_represented_oneRequest :
    ∃ r, Runs (cacheStep oneRequestCache) (CacheAnswered oneRequestCache) (.start oneRequestCache noBlocks) r ∧
      r.inFlight.length = 1 ∧ r.boundaries.length = 4 ∧ ∀ cache ∈ r.boundaries, Represented cache := by
  have hinit : CacheAnswered oneRequestCache (.start oneRequestCache noBlocks) (.init (fun _ => true) twoMetaBlocks) := by
    exact fun _ => ⟨by decide, Or.inl ⟨rfl, _, _, rfl, by decide, rfl, _, _, rfl, by decide, trivial⟩⟩
  have hruns : ∃ r, Runs (cacheStep oneRequestCache) (CacheAnswered oneRequestCache) (.start oneRequestCache noBlocks) r ∧
      r.inFlight.length = 1 ∧ r.boundaries.length = 4 := by
    refine ⟨_, .head ⟨_, hinit, rfl⟩ (.head
      ⟨.submit hashRequest [some ⟨0xa000, 8⟩] (some ⟨0xb000, 8⟩) true, fun _ _ _ => ⟨_, rfl, by decide⟩, rfl⟩ .refl), rfl, rfl⟩
  obtain ⟨r, hruns, hflight, hlen⟩ := hruns
  exact ⟨r, hruns, hflight, hlen, (bufCache_represented_if_answered oneRequestCache noBlocks r hruns).1⟩

/-- `Init` that gets one block of two aborts. A destination without a block returns to the cache as a
buffer with data, and `Close` aborts. -/
theorem bufCache_aborts :
    cacheStep oneRequestCache (.start oneRequestCache noBlocks) (.init (fun _ => true) [some ⟨0x9000, 16⟩, none]) =
        .error (.clear (2 ^ 32 - 1)) ∧
      ∃ r, Runs (cacheStep oneRequestCache) (fun _ _ => True) (.start oneRequestCache noBlocks) r ∧
        (∃ cache ∈ r.boundaries, ¬Represented cache) ∧
        cacheStep oneRequestCache r .close = .error (.freeMeta 1) := by
  refine ⟨rfl, _, .head ⟨.init (fun _ => true) twoMetaBlocks, trivial, rfl⟩ (.head
    ⟨.submit hashRequest [some ⟨0xa000, 8⟩] none true, trivial, rfl⟩ .refl), ?_, rfl⟩
  refine ⟨_, List.mem_cons_self, ?_⟩
  intro h
  exact absurd (h.2 _ List.mem_cons_self) (by decide)

end Vesal.Proofs
