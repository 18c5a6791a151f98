import Vesal.QatBuffer

/-!
# Requests, results and status codes

The types of `codec.h`, `status.h` and `codec_common.h`, and the mapping from the states
of the driver to those of the library (`qat_error_handling.h`).
-/

namespace Vesal

inductive StatusCode where
  | kOk | kInvalidArgument | kNotSupported | kResourceBusy | kHardwareError | kChannelError | kTimeout
  | kOverflow | kBadData | kShouldRetry | kDropped | kPermanentError | kUnknown | kSliceHang
deriving DecidableEq, Repr

inductive CodecAlgorithm where
  | kLz4 | kZstd | kDeflate | kZlib | kNum
deriving DecidableEq, Repr

inductive CodecCompLevel where
  | kLevel1 | kLevel2 | kLevel3 | kLevel4 | kLevel5 | kLevel6 | kLevel7 | kLevel8 | kLevel9
  | kLevel10 | kLevel11 | kLevel12 | kNum
deriving DecidableEq, Repr

inductive CodecChecksumType where
  | kNone | kCrc32 | kNum
deriving DecidableEq, Repr

inductive CodecDirection where
  | kComp | kDecomp | kNum
deriving DecidableEq, Repr

inductive HaPolicy where
  | kHardware | kSoftware | kNone | kNum
deriving DecidableEq, Repr

structure CodecChannelOption where
  haPolicy : HaPolicy
  checksumType : CodecChecksumType
  compressedChecksum : Bool
  timeoutMs : Nat
deriving DecidableEq, Repr

structure CodecRequestArgs where
  src : IOVector
  dst : IOBlock
  ctx : Nat
  codecAlgorithm : CodecAlgorithm
  compLevel : CodecCompLevel
  direction : CodecDirection
deriving DecidableEq, Repr

structure CodecResult where
  consumed : Nat
  produced : Nat
  inChecksum : BitVec 64
  outChecksum : BitVec 64
  status : StatusCode
  ctx : Nat
deriving DecidableEq, Repr

inductive CpaStatus where
  | success | resource | restarting | retry | invalidParam | unsupported | fail | fatal
  | other (code : Int)
deriving DecidableEq, Repr

/-- `CpaDcReqStatus`: the states that are told apart, the rest by its number. -/
inductive CpaDcReqStatus where
  | ok | softErr | maxResubmitErr | lz4MaxBlockSizeExceeded | overflow | verifyError
  | invalidBlockType | badStoredBlockLen | tooManyCodes | incompleteCodeLens | repeatedLens
  | moreRepeat | badLitlenCodes | badDistCodes | invalidCode | invalidDist | lz4BlockOverflowErr
  | lz4TokenIsZeroErr | lz4DistanceOutOfRangeErr | fatalErr | incompleteFileErr | wdogTimerErr
  | other (code : Int)
deriving DecidableEq, Repr

def cpaDcReqStatusToVesalStatusCode : CpaDcReqStatus → StatusCode
  | .ok => .kOk
  | .softErr | .maxResubmitErr | .lz4MaxBlockSizeExceeded => .kResourceBusy
  | .overflow => .kOverflow
  | .verifyError => .kChannelError
  | .invalidBlockType | .badStoredBlockLen | .tooManyCodes | .incompleteCodeLens | .repeatedLens
  | .moreRepeat | .badLitlenCodes | .badDistCodes | .invalidCode | .invalidDist
  | .lz4BlockOverflowErr | .lz4TokenIsZeroErr | .lz4DistanceOutOfRangeErr => .kBadData
  | .fatalErr => .kHardwareError
  | .incompleteFileErr => .kInvalidArgument
  | .wdogTimerErr => .kTimeout
  | .other _ => .kUnknown

def cpaStatusToVesalStatusCode : CpaStatus → StatusCode
  | .success => .kOk
  | .resource => .kResourceBusy
  | .restarting | .retry => .kShouldRetry
  | .invalidParam => .kInvalidArgument
  | .unsupported => .kNotSupported
  | .fail => .kChannelError
  | .fatal => .kHardwareError
  | .other _ => .kUnknown

def completionStatusCode (status : CpaStatus) (reqStatus : CpaDcReqStatus) : StatusCode :=
  if reqStatus ≠ .ok then cpaDcReqStatusToVesalStatusCode reqStatus
  else cpaStatusToVesalStatusCode status

def failedResult (ctx : Nat) (status : StatusCode) : CodecResult := ⟨0, 0, 0, 0, status, ctx⟩

/-- `CodecResultList::Push` of a completed request; `consumed` and `produced` of a result
are `unsigned int`. -/
def successResult (ctx consumed produced : Nat) (inChecksum outChecksum : BitVec 64) : CodecResult :=
  ⟨consumed % 2 ^ 32, produced % 2 ^ 32, inChecksum, outChecksum, .kOk, ctx⟩

def modifyAll (results : List CodecResult) (changeTo : StatusCode) : List CodecResult :=
  results.map (fun r => { r with status := changeTo })

end Vesal
