import Vesal.DcFormat

/-!
# The data path of a codec request

What `PrepareCommonReqData` hands to the hardware, and what the callback of a completed
request does with the hardware's result (`qat_codec_engine.cc`).
-/

namespace Vesal

open Library

structure CpaDcRqResults where
  status : CpaDcReqStatus
  produced : Nat
  consumed : Nat
  checksum : BitVec 32
  iCrc : BitVec 64
  oCrc : BitVec 64
deriving DecidableEq, Repr

/-- `RequestCbContext` without the hardware's results, which come with the completion. `engine` is
whether that pointer is set. -/
structure RequestCbContext where
  engine : Bool
  reqId : Nat
  integrityCrcCheck : Bool
  srcQat : Option QatBuf
  dstQat : Option QatBuf
  srcData : List (Nat × Nat)
  dstData : Nat
  dstLen : Nat

variable (cb : RequestCbContext)

def RequestCbContext.initCrcControlData (checksumType : CodecChecksumType) :
    RequestCbContext :=
  { cb with integrityCrcCheck := checksumType == .kCrc32 }

/-- A fresh context, as its constructor and `InitCrcControlData` leave it. -/
def newRequestCbContext (checksumType : CodecChecksumType) : RequestCbContext :=
  RequestCbContext.initCrcControlData ⟨false, 0, false, none, none, [], 0, 0⟩ checksumType

def fillRequestBuffers (dev : DmaUnit) (args : CodecRequestArgs) (srcBuf dstBuf : QatBuf)
    (pool : PoolState) : Except SglFault (Bool × QatBuf × QatBuf × PoolState) := do
  let headerSize := (headerFooterSize args.codecAlgorithm).1
  let footerSize := (headerFooterSize args.codecAlgorithm).2
  let caller := args.src.extents ++ [args.dst.extent]
  let (fillSrcR, srcBuf, pool) ←
    if args.direction = .kComp then fillSrc dev args.src 0 0 srcBuf pool
    else fillSrc dev args.src headerSize footerSize srcBuf pool
  let (fillDstR, dstBuf, pool) :=
    if args.direction = .kComp then fillDst dev caller args.dst headerSize footerSize dstBuf pool
    else fillDst dev caller args.dst 0 0 dstBuf pool
  if !fillSrcR || !fillDstR then
    let (srcBuf, pool) := if fillSrcR then freeDataIfNecessary dev srcBuf pool else (srcBuf, pool)
    let (dstBuf, pool) := if fillDstR then freeDataIfNecessary dev dstBuf pool else (dstBuf, pool)
    return (false, srcBuf, dstBuf, pool)
  else return (true, srcBuf, dstBuf, pool)

def RequestCbContext.setRequest (opts : CodecChannelOption) (reqId : Nat)
    (args : CodecRequestArgs) (srcBuf dstBuf : QatBuf) : RequestCbContext :=
  let cb := { cb with engine := true, reqId := reqId, srcQat := some srcBuf, dstQat := some dstBuf }
  if opts.checksumType ≠ .kNone then
    { cb with
      srcData := args.src.map (fun b => (b.data, b.size))
      dstData := args.dst.data
      dstLen := args.dst.size }
  else cb

/-- A read past the user's source arrays, a fault in the combination, or a missing
destination. -/
inductive CallbackFault where
  | srcIndex
  | combine (fault : CombineFault)
  | noDst
deriving DecidableEq, Repr

def copySrcSkip : List (Nat × Nat) → Nat → Except CallbackFault (List (Nat × Nat) × Nat)
  | [], _ => .error .srcIndex
  | (data, len) :: rest, left =>
    if len ≤ left then copySrcSkip rest (left - len) else .ok ((data, len) :: rest, left)

/-- The second loop of `CopySrcData`, with `len - copied` bytes to go. Every `memcpy` goes
to the start of `buf`. -/
def copySrcLoop (mem : Memory) : List (Nat × Nat) → Nat → Nat → List UInt8 →
    Except CallbackFault (List UInt8)
  | [], _, toGo, buf => if toGo = 0 then .ok buf else .error .srcIndex
  | (data, len) :: rest, left, toGo, buf =>
    if toGo = 0 then .ok buf
    else
      let copyLen := min toGo (len - left)
      copySrcLoop mem rest 0 (toGo - copyLen) (readBytes mem (data + left) copyLen ++ buf.drop copyLen)

variable (results : CpaDcRqResults) (mem : Memory)

def RequestCbContext.copySrcData (buf : List UInt8)
    (len offset : Nat) : Except CallbackFault (List UInt8) := do
  let (srcs, left) ← copySrcSkip cb.srcData offset
  copySrcLoop mem srcs left len buf

def RequestCbContext.copyDstData (len offset : Nat) : List UInt8 :=
  readBytes mem (cb.dstData + offset) len

inductive CodecDataDirection where
  | kInput | kOutput
deriving DecidableEq, Repr

def getOffloadedCRC32 : CodecDataDirection → BitVec 32
  | .kInput => results.iCrc.setWidth 32
  | .kOutput => results.oCrc.setWidth 32

def getQatProcessedDataSize : CodecDataDirection → Nat
  | .kInput => results.consumed
  | .kOutput => results.produced

/-- `SwCalcCRC32`, with `vesal_consumed` and `vesal_produced` as the callback has set them. -/
def RequestCbContext.swCalcCRC32 (consumed produced : Nat) :
    CodecDataDirection → Except CallbackFault (BitVec 32)
  | .kInput =>
    match cb.srcData with
    | [(data, _)] => .ok (computeCRC32 kCrc32cInitialValue (readBytes mem data consumed))
    | _ => do
      let bytes ← cb.copySrcData mem (List.replicate consumed 0) consumed 0
      return computeCRC32 kCrc32cInitialValue bytes
  | .kOutput => .ok (computeCRC32 kCrc32cInitialValue (readBytes mem cb.dstData produced))

def combineFrame (headerCrc dataCrc footerCrc : BitVec 32) (dataSize footerSize : Nat) :
    Except CallbackFault (BitVec 32) :=
  match combineThreeCRC32 kCrc32cInitialValue headerCrc dataCrc footerCrc dataSize footerSize with
  | .ok crc => .ok crc
  | .error fault => .error (.combine fault)

/-- The two `thread_local` arrays of `CompressedCRC32`, as an earlier call left them. -/
structure ZlibScratch where
  header : List UInt8
  footer : List UInt8

def compressedCRC32 (opts : CodecChannelOption) (cb : RequestCbContext) (results : CpaDcRqResults)
    (scratch : ZlibScratch) (mem : Memory) (consumed produced : Nat) (dir : CodecDirection)
    (algo : CodecAlgorithm) : Except CallbackFault (BitVec 32) :=
  if !opts.compressedChecksum then .ok 0
  else
    let dataDir := if dir = .kComp then CodecDataDirection.kOutput else .kInput
    let dataSize := getQatProcessedDataSize results dataDir
    let dataCrc := getOffloadedCRC32 results dataDir
    if !cb.integrityCrcCheck then cb.swCalcCRC32 mem consumed produced dataDir
    else
      match algo with
      | .kLz4 => combineFrame preCalcLz4HeaderCrc dataCrc preCalcLz4FooterCrc dataSize kLz4FrameFooterSize
      | .kDeflate => .ok dataCrc
      | .kZlib => do
        let header ←
          if dir = .kComp then .ok (cb.copyDstData mem kZlibHeaderSize 0)
          else cb.copySrcData mem scratch.header kZlibHeaderSize 0
        let footer ←
          if dir = .kComp then .ok (cb.copyDstData mem kZlibFooterSize (kZlibHeaderSize + dataSize))
          else cb.copySrcData mem scratch.footer kZlibFooterSize (kZlibHeaderSize + dataSize)
        combineFrame (computeCRC32 kCrc32cInitialValue header) dataCrc
          (computeCRC32 kCrc32cInitialValue footer) dataSize kZlibFooterSize
      | _ => .ok 0

def uncompressedCRC32
    (consumed produced : Nat) (dir : CodecDirection) : Except CallbackFault (BitVec 32) :=
  let dataDir := if dir = .kComp then CodecDataDirection.kInput else .kOutput
  if cb.integrityCrcCheck then .ok (getOffloadedCRC32 results dataDir)
  else cb.swCalcCRC32 mem consumed produced dataDir

structure FrameMeta where
  userCtx : Nat
  direction : CodecDirection
  headerSize : Nat
  footerSize : Nat
  codecAlgo : CodecAlgorithm
  compLevel : CodecCompLevel
deriving DecidableEq, Repr

def frameMetaOf (args : CodecRequestArgs) : FrameMeta :=
  ⟨args.ctx, args.direction, (headerFooterSize args.codecAlgorithm).1,
    (headerFooterSize args.codecAlgorithm).2, args.codecAlgorithm, args.compLevel⟩

/-- The callback from the check of the request's state on: the memory, and the result pushed. -/
def callbackSuccess (dev : DmaUnit) (opts : CodecChannelOption) (req : FrameMeta)
    (cb : RequestCbContext) (results : CpaDcRqResults) (scratch : ZlibScratch) (mem : Memory) :
    Except CallbackFault (Memory × CodecResult) := do
  let some dstQat := cb.dstQat | .error .noDst
  let frameSize := req.headerSize + req.footerSize
  let consumed := getQatProcessedDataSize results .kInput
  let produced := getQatProcessedDataSize results .kOutput
  let (mem, consumed, produced) :=
    if req.direction = .kComp then
      let header := (frameHeader req.codecAlgo req.compLevel).take req.headerSize
      let footer := (frameFooter req.codecAlgo results.checksum).take req.footerSize
      (compCopyBackIfNecessary dev dstQat results.produced header footer mem,
        consumed, produced + frameSize)
    else (decompCopyBackIfNecessary dev dstQat results.produced mem, consumed + frameSize, produced)
  if opts.checksumType = .kCrc32 then
    if req.direction = .kComp then
      let inCrc ← uncompressedCRC32 cb results mem consumed produced .kComp
      let outCrc ← compressedCRC32 opts cb results scratch mem consumed produced .kComp req.codecAlgo
      return (mem, successResult req.userCtx consumed produced (inCrc.setWidth 64) (outCrc.setWidth 64))
    else
      let inCrc ← compressedCRC32 opts cb results scratch mem consumed produced .kDecomp req.codecAlgo
      let outCrc ← uncompressedCRC32 cb results mem consumed produced .kDecomp
      return (mem, successResult req.userCtx consumed produced (inCrc.setWidth 64) (outCrc.setWidth 64))
  else return (mem, successResult req.userCtx consumed produced 0 0)

end Vesal
