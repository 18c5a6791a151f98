import Vesal.CodecChannel
import Vesal.CypherChannel

/-!
# Writes to the arrays for scatter-gather lists

Which entries of the arrays with `VESAL_MAX_SGL_NUM` entries a submission writes, in the
order of the source. What comes after a write outside an array is undefined: the lists end
there.
-/

namespace Vesal

/-- `src_blocks` of a request, `src_data` and `src_len` of its callback context, the array of
`IOBlock` on the stack, and the two arrays of `QatBuf`. -/
inductive SglArray where
  | srcBlocks | srcData | srcLen | localBlocks | flatBuffers | dmaAble
deriving DecidableEq, Repr

structure ArrayWrite where
  array : SglArray
  index : Nat
deriving DecidableEq, Repr

def loopWrites (array : SglArray) (n : Nat) : List ArrayWrite := (List.range n).map (ArrayWrite.mk array)

def fillOneBufferWrites (index : Nat) : List ArrayWrite := [⟨.flatBuffers, index⟩, ⟨.dmaAble, index⟩]

variable (dev : DmaUnit)

def freeDataWrites (buf : QatBuf) : List ArrayWrite :=
  if dev.svmEnabled then [] else loopWrites .flatBuffers buf.numBuffers

def fillSrcLoopWrites (dev : DmaUnit) (usrData : IOVector) (dmaBeginIndex dmaEndIndex : Nat)
    (firstUnit firstUnitLen dmaEndLen : Nat) : Nat → Nat → QatBuf → PoolState → List ArrayWrite
  | 0, _, _, _ => []
  | n + 1, i, buf, pool =>
    match blockAt usrData i with
    | .error _ => []
    | .ok block =>
      let (usrBuf, dmaDataLen) :=
        if i = dmaBeginIndex then (firstUnit, firstUnitLen)
        else if i = dmaEndIndex then (block.data, dmaEndLen)
        else (block.data, block.size)
      if vesalMaxSglNum ≤ buf.numBuffers then [⟨.flatBuffers, buf.numBuffers⟩]
      else
        fillOneBufferWrites buf.numBuffers ++
          match fillOneBuffer dev usrData.extents usrBuf (dmaDataLen % 2 ^ 32) true buf.numBuffers buf
            pool with
          | (false, buf, _) => freeDataWrites dev buf
          | (true, buf, pool) =>
            fillSrcLoopWrites dev usrData dmaBeginIndex dmaEndIndex firstUnit firstUnitLen dmaEndLen n
              (i + 1) { buf with numBuffers := buf.numBuffers + 1 } pool

def fillSrcWrites (usrData : IOVector) (frontOffset backOffset : Nat) (buf : QatBuf)
    (pool : PoolState) : List ArrayWrite :=
  if totalSize usrData % 2 ^ 64 ≤ (frontOffset + backOffset) % 2 ^ 64 then []
  else
    match findSglStartPoint usrData frontOffset with
    | .error _ => []
    | .ok (dmaBeginIndex, dmaBeginOffset) =>
      match blockAt usrData dmaBeginIndex with
      | .error _ => []
      | .ok first =>
        match findSglEndPoint usrData backOffset with
        | .error _ => []
        | .ok (dmaEndIndex, dmaEndLen) =>
          if dmaBeginIndex = dmaEndIndex then fillOneBufferWrites 0
          else
            fillSrcLoopWrites dev usrData dmaBeginIndex dmaEndIndex (first.data + dmaBeginOffset)
              (first.size - dmaBeginOffset) dmaEndLen (dmaEndIndex + 1 - dmaBeginIndex) dmaBeginIndex
              { buf with numBuffers := 0 } pool

def fillDstWrites (usrData : IOBlock) (frontOffset backOffset : Nat) : List ArrayWrite :=
  if usrData.size ≤ (frontOffset + backOffset) % 2 ^ 64 then [] else fillOneBufferWrites 0

structure FillOffsets where
  srcFront : Nat
  srcBack : Nat
  dstFront : Nat
  dstBack : Nat

/-- The two calls of `FillSrc` and `FillDst`, with what is freed again when one of them
fails. -/
def fillBuffersWrites (src : IOVector) (dst : IOBlock) (offsets : FillOffsets)
    (srcBuf dstBuf : QatBuf) (pool : PoolState) : List ArrayWrite :=
  fillSrcWrites dev src offsets.srcFront offsets.srcBack srcBuf pool ++
    match fillSrc dev src offsets.srcFront offsets.srcBack srcBuf pool with
    | .error _ => []
    | .ok (fillSrcR, srcBuf, pool) =>
      let (fillDstR, dstBuf, _) :=
        fillDst dev (src.extents ++ [dst.extent]) dst offsets.dstFront offsets.dstBack dstBuf pool
      fillDstWrites dst offsets.dstFront offsets.dstBack ++
        if fillSrcR && fillDstR then []
        else
          (if fillSrcR then freeDataWrites dev srcBuf else []) ++
            if fillDstR then freeDataWrites dev dstBuf else []

namespace EngineState

def fillOffsets (args : CodecRequestArgs) : FillOffsets :=
  let headerSize := (headerFooterSize args.codecAlgorithm).1
  let footerSize := (headerFooterSize args.codecAlgorithm).2
  if args.direction = .kComp then ⟨0, 0, headerSize, footerSize⟩ else ⟨headerSize, footerSize, 0, 0⟩

def setRequestWrites (opts : CodecChannelOption) (args : CodecRequestArgs) : List ArrayWrite :=
  if opts.checksumType ≠ .kNone then
    (List.range args.src.length).flatMap fun i => [⟨.srcData, i⟩, ⟨.srcLen, i⟩]
  else []

def submitAsyncRequestWrites (cfg : EngineConfig) (env : SubmitEnv) (args : CodecRequestArgs)
    (st : EngineState) : List ArrayWrite :=
  if !checkSessionOption args || st.isFatal || qatRingFull cfg st then []
  else
    loopWrites .srcBlocks args.src.length ++
      if vesalMaxSglNum < args.src.length then []
      else
        match st.bufs with
        | srcBuf :: dstBuf :: _ =>
          fillBuffersWrites cfg.dev args.src args.dst (fillOffsets args) srcBuf dstBuf st.pool ++
            match fillRequestBuffers cfg.dev args srcBuf dstBuf st.pool with
            | .ok (true, srcBuf, dstBuf, _) =>
              setRequestWrites cfg.opts args ++
                if env.driver = .kOk then []
                else freeDataWrites cfg.dev srcBuf ++ freeDataWrites cfg.dev dstBuf
            | _ => []
        | _ => []

end EngineState

namespace ChannelState

variable (cfg : CypherConfig) (env : SubmitEnv)

def submitAsyncWrites (args : CypherReqArgs) (st : ChannelState) :
    List ArrayWrite :=
  if isChannelFull cfg st || st.reqRingQueue.isFull then []
  else
    match sessionOf args st with
    | none => []
    | some p =>
      if !validateArgs args p.algorithm then []
      else
        match st.bufs with
        | srcBuf :: dstBuf :: _ =>
          fillBuffersWrites cfg.dev args.src args.dst ⟨0, 0, 0, 0⟩ srcBuf dstBuf st.pool ++
            match fillCypherBuffers cfg.dev args srcBuf dstBuf st.pool with
            | .ok (true, srcBuf, dstBuf, _) =>
              if !p.opened || p.algorithm == .kNum then []
              else if cpaStatusToVesalStatusCode env.driver ≠ .kOk then
                freeDataWrites cfg.dev srcBuf ++ freeDataWrites cfg.dev dstBuf
              else loopWrites .srcBlocks args.src.length
            | _ => []
        | _ => []

/-- What ends `SubmitCypherSGLReq` besides: an index outside its array of blocks or `src_len`. -/
inductive SglReqFault where
  | localBlocks (index : Nat)
  | srcLen (index : Nat)
  | channel (fault : ChannelFault)
deriving DecidableEq, Repr

def sglBlocks : Nat → List Nat → List UInt32 → Except SglReqFault IOVector × List ArrayWrite
  | _, [], _ => (.ok [], [])
  | i, data :: src, srcLen =>
    if vesalMaxSglNum ≤ i then (.error (.localBlocks i), [⟨.localBlocks, i⟩])
    else
      match srcLen with
      | [] => (.error (.srcLen i), [⟨.localBlocks, i⟩])
      | len :: srcLen =>
        let rest := sglBlocks (i + 1) src srcLen
        (rest.1.map (sglBlock data len :: ·), ⟨.localBlocks, i⟩ :: rest.2)

def sglReq (blocks : IOVector) (dst : Nat) (dstLen : UInt32) (req : CypherReqArgs) : CypherReqArgs :=
  { req with src := blocks, dst := { req.dst with data := dst, size := dstLen.toNat, size_lt := dstLen.toNat_lt } }

def submitCypherSGLReq (src : List Nat) (srcLen : List UInt32)
    (dst : Nat) (dstLen : UInt32) (req : CypherReqArgs) (st : ChannelState) :
    Except SglReqFault (StatusCode × ChannelState) :=
  match (sglBlocks 0 src srcLen).1 with
  | .error fault => .error fault
  | .ok blocks =>
    match submitAsync cfg env (sglReq blocks dst dstLen req) st with
    | .error fault => .error (.channel fault)
    | .ok result => .ok result

def submitCypherSGLReqWrites (src : List Nat) (srcLen : List UInt32)
    (dst : Nat) (dstLen : UInt32) (req : CypherReqArgs) (st : ChannelState) : List ArrayWrite :=
  (sglBlocks 0 src srcLen).2 ++
    match (sglBlocks 0 src srcLen).1 with
    | .error _ => []
    | .ok blocks => submitAsyncWrites cfg env (sglReq blocks dst dstLen req) st

end ChannelState

end Vesal
