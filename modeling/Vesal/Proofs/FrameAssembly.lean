import Vesal.CodecCallback
import Vesal.Library.EventRuns
import Vesal.Proofs.ChecksumCombine
import Vesal.Proofs.ChecksumCompute
import Vesal.Proofs.FillSrc

/-! # Assembly of compressed frames -/

namespace Vesal.Proofs

open Library List Function RequestCbContext Except

/-- A destination after `FillDst`: the payload goes to the user's memory behind the
header, or to a block of the pool. -/
structure DstFilled (caller : List Extent) (dst : IOBlock) (front back : Nat) (pool : PoolState)
    (dev : DmaUnit) (buf' : QatBuf) (pool' : PoolState) : Prop where
  room : front + back < dst.size
  usrData : buf'.dstUsrData = dst.data
  len : (buf'.pBuffers 0).dataLenInBytes = dst.size - front - back
  mem : pool'.mem = pool.mem
  place : ((dev.svmEnabled = true ∨ buf'.dmaAble 0 = true) ∧ (buf'.pBuffers 0).pData = dst.data + front) ∨
    (dev.svmEnabled = false ∧ buf'.dmaAble 0 = false ∧ ∃ block : Extent,
      block.start = (buf'.pBuffers 0).pData ∧ (buf'.pBuffers 0).dataLenInBytes ≤ block.len ∧
        ∀ e ∈ pool.allocated ++ caller, block.Disjoint e)

lemma fillDst_filled (dev : DmaUnit) (caller : List Extent) (dst : IOBlock) (front back : Nat)
    (buf buf' : QatBuf) (pool pool' : PoolState) (hsmall : front + back < 2 ^ 32)
    (h : fillDst dev caller dst front back buf pool = (true, buf', pool')) :
    DstFilled caller dst front back pool dev buf' pool' := by
  have hsize := dst.size_lt
  unfold fillDst at h
  by_cases hroom : dst.size ≤ (front + back) % 2 ^ 64
  · rw [if_pos hroom] at h
    cases h
  · rw [Nat.mod_eq_of_lt (by omega)] at hroom
    have hlen : (dst.size + 2 ^ 65 - front - back) % 2 ^ 32 = dst.size - front - back := by omega
    rw [Nat.mod_eq_of_lt (by omega), if_neg hroom, hlen] at h
    rcases fillOneBuffer_cases dev caller (dst.data + front) (dst.size - front - back) false 0
      { buf with dstUsrData := dst.data, dstUsrDataLen := dst.size, numBuffers := 1 } pool with
      hfill | ⟨-, answers, hfill⟩ | ⟨hsvm, block, answers, ⟨-, -, hle, hdis⟩, hfill⟩
    · rw [hfill] at h
      injection h with _ h
      injection h with hbuf hpool
      subst hbuf hpool
      refine ⟨by omega, rfl, ?_, rfl, .inl ⟨.inr ?_, ?_⟩⟩
      · simp [setBuffer]
      · simp [setBuffer]
      · simp [setBuffer]
    · rw [hfill] at h
      cases h
    · rw [hfill] at h
      injection h with _ h
      injection h with hbuf hpool
      subst hbuf hpool
      refine ⟨by omega, rfl, ?_, rfl, .inr ⟨hsvm, ?_, block, ?_, ?_, hdis⟩⟩
      · simp [setBuffer]
      · simp [setBuffer]
      · simp [setBuffer]
      · simpa [setBuffer] using hle

section

variable {caller : List Extent} {dst : IOBlock} {pool pool' : PoolState} {dev : DmaUnit} {buf : QatBuf}
  {header footer payload : List UInt8}

lemma compCopyBack_frame (mem : Memory)
    (hd : DstFilled caller dst header.length footer.length pool dev buf pool')
    (hcaller : dst.extent ∈ caller) (hlen : payload.length ≤ (buf.pBuffers 0).dataLenInBytes)
    (hmem : readBytes mem (buf.pBuffers 0).pData payload.length = payload) :
    readBytes (compCopyBackIfNecessary dev buf payload.length header footer mem) dst.data
      (header.length + payload.length + footer.length) = header ++ payload ++ footer := by
  have hroom := hd.room
  unfold compCopyBackIfNecessary
  rw [hd.usrData]
  rw [Nat.add_assoc dst.data, readBytes_writeBytes_append]
  congr 1
  have hheader : readBytes (writeBytes mem dst.data header) dst.data header.length = header :=
    readBytes_writeBytes mem dst.data header
  rcases hd.place with ⟨hzero, hplace⟩ | ⟨hsvm, hdma, block, hstart, hblock, hdis⟩
  · have hcond : (!dev.svmEnabled && !buf.dmaAble 0) = false := by
      rcases hzero with h | h <;> simp [h]
    rw [hcond, if_neg (by simp), readBytes_add, hheader]
    congr 1
    rw [hplace] at hmem
    rw [readBytes_writeBytes_disjoint, hmem]
    unfold Extent.Disjoint
    simp only
    omega
  · have hapart := hdis dst.extent (mem_append_right _ hcaller)
    unfold Extent.Disjoint IOBlock.extent at hapart
    simp only at hapart
    have hread : readBytes (writeBytes mem dst.data header) (buf.pBuffers 0).pData payload.length =
        payload := by
      rw [readBytes_writeBytes_disjoint, hmem]
      unfold Extent.Disjoint
      simp only
      omega
    rw [hsvm, hdma, if_pos (by rfl), hread, readBytes_writeBytes_append, hheader]

lemma compCopyBack_outside (mem : Memory)
    (hd : DstFilled caller dst header.length footer.length pool dev buf pool')
    (hlen : payload.length ≤ (buf.pBuffers 0).dataLenInBytes) {a : Nat}
    (ha : a < dst.data ∨ dst.data + dst.size ≤ a) :
    compCopyBackIfNecessary dev buf payload.length header footer mem a = mem a := by
  have hroom := hd.room
  have hl := hd.len
  unfold compCopyBackIfNecessary
  rw [hd.usrData, writeBytes_outside _ _ _ (by omega)]
  split
  · rw [writeBytes_outside _ _ _ (by rw [readBytes_length]; omega), writeBytes_outside _ _ _ (by omega)]
  · rw [writeBytes_outside _ _ _ (by omega)]

end

/-- What is assumed of the hardware: it reads a prefix of the source, writes its payload
into the destination buffer and nothing else, and reports the CRCs of both. -/
structure HardwareRun (mem : Memory) (srcBuf dstBuf : QatBuf) (results : CpaDcRqResults)
    (payload : List UInt8) (mem' : Memory) : Prop where
  consumed_le : results.consumed ≤ (flatBytes mem srcBuf).length
  produced : results.produced = payload.length
  payload_le : payload.length ≤ (dstBuf.pBuffers 0).dataLenInBytes
  writes : mem' = writeBytes mem (dstBuf.pBuffers 0).pData payload
  iCrc : results.iCrc =
    (crcUpdate kCrc32cInitialValue ((flatBytes mem srcBuf).take results.consumed)).setWidth 64
  oCrc : results.oCrc = (crcUpdate kCrc32cInitialValue payload).setWidth 64

variable (algo : CodecAlgorithm)

lemma frameHeader_length (level : CodecCompLevel) :
    (frameHeader algo level).length = (headerFooterSize algo).1 := by
  cases algo <;> rfl

lemma frameFooter_length (adler32 : BitVec 32) :
    (frameFooter algo adler32).length = (headerFooterSize algo).2 := by
  cases algo <;> rfl

variable {dev : DmaUnit}

variable {db : QatBuf} {pool pool' : PoolState} {opts : CodecChannelOption}

variable {args : CodecRequestArgs} {sb : QatBuf} {cb : RequestCbContext} {results : CpaDcRqResults}
  {scratch : ZlibScratch} {mem : Memory} {payload : List UInt8}

lemma fillRequestBuffers_fills {srcBuf dstBuf : QatBuf}
    (h : fillRequestBuffers dev args srcBuf dstBuf pool = .ok (true, sb, db, pool')) :
    let headerSize := (headerFooterSize args.codecAlgorithm).1
    let footerSize := (headerFooterSize args.codecAlgorithm).2
    let caller := args.src.extents ++ [args.dst.extent]
    ∃ poolM,
      (if args.direction = .kComp then fillSrc dev args.src 0 0 srcBuf pool
        else fillSrc dev args.src headerSize footerSize srcBuf pool) = .ok (true, sb, poolM) ∧
      (if args.direction = .kComp then fillDst dev caller args.dst headerSize footerSize dstBuf poolM
        else fillDst dev caller args.dst 0 0 dstBuf poolM) = (true, db, pool') := by
  intro headerSize footerSize caller
  unfold fillRequestBuffers at h
  by_cases hdir : args.direction = .kComp
  · simp only [hdir, if_true] at h ⊢
    obtain ⟨⟨srcOk, sb', poolM⟩, hsrc, h⟩ := exists_of_bind_eq_ok h
    rcases hdst : fillDst dev caller args.dst headerSize footerSize dstBuf poolM with ⟨dstOk, db', pool₂⟩
    simp only [caller, headerSize, footerSize] at hdst
    simp only [hdst] at h
    cases srcOk <;> cases dstOk <;> cases h
    exact ⟨poolM, hsrc, hdst⟩
  · simp only [hdir, if_false] at h ⊢
    obtain ⟨⟨srcOk, sb', poolM⟩, hsrc, h⟩ := exists_of_bind_eq_ok h
    rcases hdst : fillDst dev caller args.dst 0 0 dstBuf poolM with ⟨dstOk, db', pool₂⟩
    simp only [caller] at hdst
    simp only [hdst] at h
    cases srcOk <;> cases dstOk <;> cases h
    exact ⟨poolM, hsrc, hdst⟩

lemma fillSrc_whole {usrData : IOVector} {buf : QatBuf} (h32 : usrData.length ≤ 32)
    (h : fillSrc dev usrData 0 0 buf pool = .ok (true, sb, pool')) :
    SrcFilled usrData 0 0 pool sb pool' ∧ flatBytes pool'.mem sb = userBytes pool.mem usrData := by
  have hpos : 0 + 0 < totalSize usrData := by
    by_contra hzero
    have htotal : totalSize usrData = 0 := by omega
    unfold fillSrc at h
    rw [htotal, if_pos (by simp)] at h
    cases h
  obtain ⟨r, hr, htrue, -⟩ := fillSrc_outcome dev usrData 0 0 buf pool h32 hpos
  rw [h] at hr
  cases hr
  have hfilled := htrue rfl
  refine ⟨hfilled, ?_⟩
  rw [hfilled.bytes, drop_zero, Nat.sub_zero, Nat.sub_zero, ← userBytes_length pool.mem usrData,
    take_length]

lemma combineFrame_eq (header payload footer : List UInt8) (hp : payload.length < 2 ^ 64)
    (hf : footer.length < 2 ^ 64) :
    combineFrame (computeCRC32 kCrc32cInitialValue header) (crcUpdate kCrc32cInitialValue payload)
      (computeCRC32 kCrc32cInitialValue footer) payload.length footer.length =
      .ok (crcUpdate kCrc32cInitialValue (header ++ payload ++ footer)) := by
  rw [combineFrame, computeCRC32_eq, computeCRC32_eq,
    combineThreeCRC32_eq kCrc32cInitialValue header payload footer hp hf]

lemma compressedCRC32_comp {consumed produced : Nat} {algo : CodecAlgorithm} {level : CodecCompLevel}
    (halgo : algo = .kLz4 ∨ algo = .kDeflate ∨ algo = .kZlib) (hcomp : opts.compressedChecksum = true)
    (hoff : cb.integrityCrcCheck = true) (hprod : results.produced = payload.length)
    (hlen : payload.length < 2 ^ 32) (hoCrc : results.oCrc = (crcUpdate kCrc32cInitialValue payload).setWidth 64)
    (hframe : readBytes mem cb.dstData ((headerFooterSize algo).1 + payload.length +
      (headerFooterSize algo).2) = frameHeader algo level ++ payload ++ frameFooter algo results.checksum) :
    compressedCRC32 opts cb results scratch mem consumed produced .kComp algo =
      .ok (crcUpdate kCrc32cInitialValue
        (frameHeader algo level ++ payload ++ frameFooter algo results.checksum)) := by
  have hcrc : getOffloadedCRC32 results .kOutput = crcUpdate kCrc32cInitialValue payload := by
    rw [getOffloadedCRC32, hoCrc, setWidth_64_32]
  have hsize : getQatProcessedDataSize results .kOutput = payload.length := hprod
  unfold compressedCRC32
  rw [hcomp, hoff]
  simp only [Bool.not_true, Bool.false_eq_true, if_false, if_true, hcrc, hsize]
  rcases halgo with rfl | rfl | rfl
  · exact combineFrame_eq lz4FrameHeaderGen payload lz4FrameFooterGen (by omega) (by decide)
  · simp [frameHeader, frameFooter]
  · have hhead : cb.copyDstData mem kZlibHeaderSize 0 = zlibHeaderGen level := by
      have htake := congrArg (List.take 2) hframe
      rw [take_readBytes _ _ _ _ (by simp [headerFooterSize, kZlibHeaderSize]; omega)] at htake
      exact htake
    have hfoot : cb.copyDstData mem kZlibFooterSize (kZlibHeaderSize + payload.length) =
        zlibFooterGen results.checksum := by
      have hdrop := congrArg (List.drop (2 + payload.length)) hframe
      rw [drop_readBytes _ _ _ _ (by simp [headerFooterSize, kZlibHeaderSize])] at hdrop
      have hlist : 2 + payload.length = (frameHeader .kZlib level ++ payload).length := by
        simp [frameHeader, zlibHeaderGen]
        omega
      rw [hlist, drop_left] at hdrop
      rw [← hlist] at hdrop
      have hfour : (headerFooterSize .kZlib).1 + payload.length + (headerFooterSize .kZlib).2 -
          (2 + payload.length) = 4 := by
        simp [headerFooterSize, kZlibHeaderSize, kZlibFooterSize]
      rw [hfour] at hdrop
      exact hdrop
    simp only [hhead, hfoot, bind, bind]
    exact combineFrame_eq (zlibHeaderGen level) payload (zlibFooterGen results.checksum) (by omega)
      (by simp [zlibFooterGen, store32])

/-- What a compression delivers. Bytes in use before the call are those of pool blocks
handed out earlier and of the source. -/
structure FrameDelivered (opts : CodecChannelOption) (args : CodecRequestArgs) (pool : PoolState)
    (results : CpaDcRqResults) (payload : List UInt8) (mem' : Memory) (res : CodecResult) : Prop where
  status : res.status = .kOk
  frame : readBytes mem' args.dst.data res.produced =
    frameHeader args.codecAlgorithm args.compLevel ++ payload ++
      frameFooter args.codecAlgorithm results.checksum
  produced : res.produced = (frameHeader args.codecAlgorithm args.compLevel ++ payload ++
    frameFooter args.codecAlgorithm results.checksum).length
  fits : res.produced ≤ args.dst.size
  outside : ∀ e ∈ pool.allocated ++ args.src.extents, ∀ a, e.start ≤ a → a < e.start + e.len →
    (a < args.dst.data ∨ args.dst.data + args.dst.size ≤ a) → mem' a = pool.mem a
  inChecksum : opts.checksumType = .kCrc32 → res.inChecksum =
    (crcUpdate kCrc32cInitialValue ((userBytes pool.mem args.src).take results.consumed)).setWidth 64
  outChecksum : opts.checksumType = .kCrc32 → opts.compressedChecksum = true → res.outChecksum =
    (crcUpdate kCrc32cInitialValue (readBytes mem' args.dst.data res.produced)).setWidth 64

@[simp] lemma setRequest_dstQat (cb : RequestCbContext) (opts : CodecChannelOption) (reqId : Nat)
    (args : CodecRequestArgs) (sb db : QatBuf) : (cb.setRequest opts reqId args sb db).dstQat = some db := by
  unfold setRequest
  split <;> rfl

@[simp] lemma setRequest_integrityCrcCheck (cb : RequestCbContext) (opts : CodecChannelOption)
    (reqId : Nat) (args : CodecRequestArgs) (sb db : QatBuf) :
    (cb.setRequest opts reqId args sb db).integrityCrcCheck = cb.integrityCrcCheck := by
  unfold setRequest
  split <;> rfl

lemma setRequest_dstData (cb : RequestCbContext) (reqId : Nat) (args : CodecRequestArgs) (sb db : QatBuf)
    (h : opts.checksumType = .kCrc32) :
    (cb.setRequest opts reqId args sb db).dstData = args.dst.data := by
  unfold setRequest
  rw [h]
  rfl

lemma hardware_outside {caller : List Extent} {dst : IOBlock} {front back : Nat} (mem : Memory)
    (hd : DstFilled caller dst front back pool dev db pool')
    (hlen : payload.length ≤ (db.pBuffers 0).dataLenInBytes) {e : Extent} (he : e ∈ pool.allocated ++ caller)
    {a : Nat} (hlo : e.start ≤ a) (hhi : a < e.start + e.len) (ha : a < dst.data ∨ dst.data + dst.size ≤ a) :
    writeBytes mem (db.pBuffers 0).pData payload a = mem a := by
  have hroom := hd.room
  have hl := hd.len
  apply writeBytes_outside
  rcases hd.place with ⟨-, hplace⟩ | ⟨-, -, block, hstart, hblock, hdis⟩
  · rw [hplace]
    omega
  · have hapart := hdis e he
    unfold Extent.Disjoint at hapart
    omega

lemma callbackSuccess_comp {mem' : Memory} (hdir : args.direction = .kComp) (hdst : cb.dstQat = some db)
    (hmem : mem' = compCopyBackIfNecessary dev db results.produced
      (frameHeader args.codecAlgorithm args.compLevel) (frameFooter args.codecAlgorithm results.checksum) mem) :
    callbackSuccess dev opts (frameMetaOf args) cb results scratch mem =
      let produced := results.produced + ((headerFooterSize args.codecAlgorithm).1 +
        (headerFooterSize args.codecAlgorithm).2)
      if opts.checksumType = .kCrc32 then do
        let inCrc ← uncompressedCRC32 cb results mem' results.consumed produced .kComp
        let outCrc ← compressedCRC32 opts cb results scratch mem' results.consumed produced .kComp
          args.codecAlgorithm
        return (mem', successResult args.ctx results.consumed produced (inCrc.setWidth 64)
          (outCrc.setWidth 64))
      else return (mem', successResult args.ctx results.consumed produced 0 0) := by
  have hheader : (frameHeader args.codecAlgorithm args.compLevel).take
      (headerFooterSize args.codecAlgorithm).1 = frameHeader args.codecAlgorithm args.compLevel := by
    rw [← frameHeader_length args.codecAlgorithm args.compLevel, take_length]
  have hfooter : (frameFooter args.codecAlgorithm results.checksum).take
      (headerFooterSize args.codecAlgorithm).2 = frameFooter args.codecAlgorithm results.checksum := by
    rw [← frameFooter_length args.codecAlgorithm results.checksum, take_length]
  unfold callbackSuccess frameMetaOf
  rw [hdst, hmem]
  simp only [hdir, if_true, getQatProcessedDataSize, hheader, hfooter]

section

variable {dev : DmaUnit} {args : CodecRequestArgs} {srcBuf dstBuf sb db : QatBuf}
  {pool pool' : PoolState} {results : CpaDcRqResults} {payload : List UInt8} {mem : Memory}

def frameLength (args : CodecRequestArgs) (payload : List UInt8) : Nat :=
  (headerFooterSize args.codecAlgorithm).1 + payload.length + (headerFooterSize args.codecAlgorithm).2

structure FrameWritten (args : CodecRequestArgs) (pool : PoolState) (results : CpaDcRqResults)
    (payload : List UInt8) (mem' : Memory) : Prop where
  frame : readBytes mem' args.dst.data (frameLength args payload) =
    frameHeader args.codecAlgorithm args.compLevel ++ payload ++
      frameFooter args.codecAlgorithm results.checksum
  fits : frameLength args payload ≤ args.dst.size
  outside : ∀ e ∈ pool.allocated ++ args.src.extents, ∀ a, e.start ≤ a → a < e.start + e.len →
    (a < args.dst.data ∨ args.dst.data + args.dst.size ≤ a) → mem' a = pool.mem a

lemma compress_writes_frame (hdir : args.direction = .kComp) (h32 : args.src.length ≤ 32)
    (hfill : fillRequestBuffers dev args srcBuf dstBuf pool = .ok (true, sb, db, pool'))
    (hhw : HardwareRun pool'.mem sb db results payload mem) :
    FrameWritten args pool results payload (compCopyBackIfNecessary dev db results.produced
      (frameHeader args.codecAlgorithm args.compLevel)
      (frameFooter args.codecAlgorithm results.checksum) mem) ∧
    flatBytes pool'.mem sb = userBytes pool.mem args.src := by
  obtain ⟨poolM, hsrc, hdst⟩ := fillRequestBuffers_fills hfill
  rw [if_pos hdir] at hsrc hdst
  obtain ⟨hsrcFilled, hflat⟩ := fillSrc_whole h32 hsrc
  have hsizes : (headerFooterSize args.codecAlgorithm).1 + (headerFooterSize args.codecAlgorithm).2 <
      2 ^ 32 := by
    cases args.codecAlgorithm <;> decide
  have hd := fillDst_filled dev _ args.dst _ _ dstBuf db poolM pool' hsizes hdst
  have hlength : frameLength args payload = (frameHeader args.codecAlgorithm args.compLevel).length +
      payload.length + (frameFooter args.codecAlgorithm results.checksum).length := by
    rw [frameLength, frameHeader_length, frameFooter_length]
  rw [← frameHeader_length args.codecAlgorithm args.compLevel,
    ← frameFooter_length args.codecAlgorithm results.checksum] at hd
  have hcaller : args.dst.extent ∈ args.src.extents ++ [args.dst.extent] := by simp
  have hpayload : readBytes mem (db.pBuffers 0).pData payload.length = payload := by
    rw [hhw.writes]
    exact readBytes_writeBytes _ _ _
  rw [hhw.produced]
  refine ⟨⟨?_, ?_, ?_⟩, ?_⟩
  · rw [hlength]
    exact compCopyBack_frame mem hd hcaller hhw.payload_le hpayload
  · have hroom := hd.room
    have hlen := hd.len
    have hle := hhw.payload_le
    omega
  · intro e he a hlo hhi ha
    obtain ⟨block, halloc, -, -⟩ := hsrcFilled.owned
    have hmem : e ∈ poolM.allocated ++ (args.src.extents ++ [args.dst.extent]) := by
      rw [halloc]
      simp only [mem_append] at he ⊢
      tauto
    rw [compCopyBack_outside mem hd hhw.payload_le ha, hhw.writes,
      hardware_outside _ hd hhw.payload_le hmem hlo hhi ha, hd.mem]
    exact hsrcFilled.untouched e he a hlo hhi
  · rw [hd.mem]
    exact hflat

lemma frameDelivered_of_written {opts : CodecChannelOption} {mem' : Memory} {inCrc outCrc : BitVec 64}
    (hw : FrameWritten args pool results payload mem') (hprod : results.produced = payload.length)
    (hin : opts.checksumType = .kCrc32 → inCrc =
      (crcUpdate kCrc32cInitialValue ((userBytes pool.mem args.src).take results.consumed)).setWidth 64)
    (hout : opts.checksumType = .kCrc32 → opts.compressedChecksum = true → outCrc =
      (crcUpdate kCrc32cInitialValue (frameHeader args.codecAlgorithm args.compLevel ++ payload ++
        frameFooter args.codecAlgorithm results.checksum)).setWidth 64) :
    FrameDelivered opts args pool results payload mem' (successResult args.ctx results.consumed
      (results.produced + ((headerFooterSize args.codecAlgorithm).1 +
        (headerFooterSize args.codecAlgorithm).2)) inCrc outCrc) := by
  have hsize := args.dst.size_lt
  have hfits := hw.fits
  have hlength : (frameHeader args.codecAlgorithm args.compLevel ++ payload ++
      frameFooter args.codecAlgorithm results.checksum).length = frameLength args payload := by
    rw [length_append, length_append, frameHeader_length, frameFooter_length, frameLength]
  have hproduced : (results.produced + ((headerFooterSize args.codecAlgorithm).1 +
      (headerFooterSize args.codecAlgorithm).2)) % 2 ^ 32 = frameLength args payload := by
    have heq : results.produced + ((headerFooterSize args.codecAlgorithm).1 +
        (headerFooterSize args.codecAlgorithm).2) = frameLength args payload := by
      rw [hprod, frameLength]
      omega
    rw [heq, Nat.mod_eq_of_lt (by omega)]
  constructor
  · rfl
  · simp only [successResult, hproduced]
    exact hw.frame
  · simp only [successResult, hproduced, hlength]
  · simp only [successResult, hproduced]
    exact hfits
  · exact hw.outside
  · exact hin
  · intro hcrc hcomp
    simp only [successResult, hproduced]
    rw [hw.frame]
    exact hout hcrc hcomp

end

/-- A compression that the hardware completed. The checksums are delivered when the
channel asks for them. -/
theorem compress_delivers_frame (dev : DmaUnit) (opts : CodecChannelOption) (args : CodecRequestArgs)
    (srcBuf dstBuf sb db : QatBuf) (pool pool' : PoolState) (cb₀ : RequestCbContext) (reqId : Nat)
    (results : CpaDcRqResults) (scratch : ZlibScratch) (payload : List UInt8) (mem : Memory)
    (hdir : args.direction = .kComp)
    (halgo : args.codecAlgorithm = .kLz4 ∨ args.codecAlgorithm = .kDeflate ∨ args.codecAlgorithm = .kZlib)
    (h32 : args.src.length ≤ 32)
    (hfill : fillRequestBuffers dev args srcBuf dstBuf pool = .ok (true, sb, db, pool'))
    (hhw : HardwareRun pool'.mem sb db results payload mem) :
    ∃ mem' res, callbackSuccess dev opts (frameMetaOf args)
        ((cb₀.initCrcControlData opts.checksumType).setRequest opts reqId args sb db) results scratch mem =
          .ok (mem', res) ∧
      FrameDelivered opts args pool results payload mem' res := by
  obtain ⟨hwritten, hflat⟩ := compress_writes_frame hdir h32 hfill hhw
  have hlt : payload.length < 2 ^ 32 := by
    have hfits := hwritten.fits
    have hsize := args.dst.size_lt
    unfold frameLength at hfits
    omega
  rw [callbackSuccess_comp hdir (setRequest_dstQat _ opts reqId args sb db) rfl]
  by_cases hcrc : opts.checksumType = .kCrc32
  · have hcheck : ((cb₀.initCrcControlData opts.checksumType).setRequest opts reqId args sb
        db).integrityCrcCheck = true := by
      rw [setRequest_integrityCrcCheck, hcrc]
      rfl
    have hin : getOffloadedCRC32 results .kInput =
        crcUpdate kCrc32cInitialValue ((userBytes pool.mem args.src).take results.consumed) := by
      rw [getOffloadedCRC32, hhw.iCrc, setWidth_64_32, hflat]
    simp only [hcrc, if_true, uncompressedCRC32, bind, bind]
    rw [hcrc] at hcheck
    simp only [hcheck, if_true, hin]
    by_cases hcomp : opts.compressedChecksum = true
    · have hdata := setRequest_dstData (cb₀.initCrcControlData .kCrc32) reqId args sb db hcrc
      have hframe := hwritten.frame
      rw [← hdata, frameLength] at hframe
      rw [compressedCRC32_comp halgo hcomp hcheck hhw.produced hlt hhw.oCrc hframe]
      exact ⟨_, _, rfl, frameDelivered_of_written hwritten hhw.produced (fun _ => rfl) (fun _ _ => rfl)⟩
    · have hzero : ∀ consumed produced mem',
          compressedCRC32 opts ((cb₀.initCrcControlData .kCrc32).setRequest opts reqId args sb db) results
            scratch mem' consumed produced .kComp args.codecAlgorithm = .ok 0 := by
        intro consumed produced mem'
        unfold compressedCRC32
        rw [if_pos (by simpa using hcomp)]
      rw [hzero]
      exact ⟨_, _, rfl, frameDelivered_of_written hwritten hhw.produced (fun _ => rfl)
        (fun _ h => absurd h hcomp)⟩
  · simp only [hcrc, if_false]
    exact ⟨_, _, rfl, frameDelivered_of_written hwritten hhw.produced (fun h => absurd h hcrc)
      (fun h => absurd h hcrc)⟩

def svmDevice : DmaUnit := ⟨true, fun _ _ => 0⟩

def byteBlock (data : Nat) : IOBlock := ⟨1, data, 0, none, by norm_num⟩

def twoBlockArgs : CodecRequestArgs :=
  ⟨[byteBlock 0x1000, byteBlock 0x1100], ⟨32, 0x2000, 0, none, by norm_num⟩, 7, algo, .kLevel1, .kComp⟩

def twoBlockSrc : QatBuf where
  numBuffers := 2
  pBuffers := Function.update (Function.update (fun _ => ⟨0, 0⟩) 0 ⟨0x1000, 1⟩) 1 ⟨0x1100, 1⟩
  dmaAble := Function.update (Function.update (fun _ => false) 0 true) 1 true
  dstUsrData := 0
  dstUsrDataLen := 0

/-- The destination is copied back from the block of the pool. -/
def copiedDst (len : Nat) : QatBuf :=
  ⟨1, Function.update (fun _ => ⟨0, 0⟩) 0 ⟨0x9000, len⟩, Function.update (fun _ => false) 0 false, 0x2000, 32⟩

def copyPool : PoolState := { onePoolBlock with allocated := [⟨0x9000, 1024⟩], answers := [] }

def twoBlockResults : CpaDcRqResults :=
  ⟨.ok, 1, 2, 0, (crcUpdate kCrc32cInitialValue [0x61, 0x61]).setWidth 64,
    (crcUpdate kCrc32cInitialValue [0x02]).setWidth 64⟩

lemma twoBlock_hardware (len : Nat) (hlen : 1 ≤ len) :
    HardwareRun copyPool.mem twoBlockSrc (copiedDst len) twoBlockResults [0x02]
      (writeBytes copyPool.mem 0x9000 [0x02]) where
  consumed_le := by decide
  produced := rfl
  payload_le := by
    exact hlen
  writes := by
    simp only [copiedDst, update_self]
  iCrc := by
    have hflat : (flatBytes copyPool.mem twoBlockSrc).take twoBlockResults.consumed = [0x61, 0x61] := by decide
    rw [hflat]
    rfl
  oCrc := rfl

/-- Two blocks are compressed into a destination that the device cannot reach. -/
theorem compress_delivers_two_blocks :
    ∃ mem' res, callbackSuccess lowDma ⟨.kNone, .kCrc32, true, 3000⟩ (frameMetaOf (twoBlockArgs .kLz4))
        (((newRequestCbContext .kNone).initCrcControlData .kCrc32).setRequest
          ⟨.kNone, .kCrc32, true, 3000⟩ 1 (twoBlockArgs .kLz4) twoBlockSrc (copiedDst 21))
        twoBlockResults ⟨[], []⟩ (writeBytes copyPool.mem 0x9000 [0x02]) = .ok (mem', res) ∧
      FrameDelivered ⟨.kNone, .kCrc32, true, 3000⟩ (twoBlockArgs .kLz4) onePoolBlock twoBlockResults [0x02]
        mem' res :=
  compress_delivers_frame lowDma ⟨.kNone, .kCrc32, true, 3000⟩ (twoBlockArgs .kLz4) emptyBuf emptyBuf
    twoBlockSrc (copiedDst 21) onePoolBlock copyPool (newRequestCbContext .kNone) 1 twoBlockResults
    ⟨[], []⟩ [0x02] _ rfl (.inl rfl) (by decide) rfl (twoBlock_hardware 21 (by decide))

/-- Without a checksum type the callback delivers zeros in the place of the checksums. -/
theorem compress_delivers_no_checksum :
    ∃ mem' res, fillRequestBuffers lowDma (twoBlockArgs .kDeflate) emptyBuf emptyBuf onePoolBlock =
        .ok (true, twoBlockSrc, copiedDst 32, copyPool) ∧
      HardwareRun copyPool.mem twoBlockSrc (copiedDst 32) twoBlockResults [0x02]
        (writeBytes copyPool.mem 0x9000 [0x02]) ∧
      callbackSuccess lowDma ⟨.kNone, .kNone, true, 3000⟩ (frameMetaOf (twoBlockArgs .kDeflate))
        (((newRequestCbContext .kNone).initCrcControlData .kNone).setRequest
          ⟨.kNone, .kNone, true, 3000⟩ 1 (twoBlockArgs .kDeflate) twoBlockSrc (copiedDst 32))
        twoBlockResults ⟨[], []⟩ (writeBytes copyPool.mem 0x9000 [0x02]) = .ok (mem', res) ∧
      res.status = .kOk ∧
      res.inChecksum ≠ (crcUpdate kCrc32cInitialValue
        ((userBytes onePoolBlock.mem (twoBlockArgs .kDeflate).src).take twoBlockResults.consumed)).setWidth 64 :=
  ⟨_, _, rfl, twoBlock_hardware 32 (by decide), rfl, rfl, by decide +kernel⟩

end Vesal.Proofs
