import Vesal.CodecEngine

/-!
# The dedicated codec channel

`QatCodecDedicatedChannel` of `qat_codec_dedicated_channel.cc` over its engine. The
synchronous calls submit a request and poll until something is returned; their environment has one
entry for each poll.
-/

namespace Vesal

structure ChannelConfig extends EngineConfig where
  userCb : Bool
  compAlgorithm : CodecAlgorithm
  compLevel : CodecCompLevel

def kMaxSrcLen : Nat := 1 <<< 31

def validateSglArgs (src : List Nat) (srcLen : List UInt32) : StatusCode :=
  let totalLen := (srcLen.map UInt32.toNat).sum % 2 ^ 64
  if srcLen.contains 0 then .kInvalidArgument
  else if kMaxSrcLen < totalLen ∨ totalLen = 0 then .kInvalidArgument
  else if src.length ≠ srcLen.length then .kInvalidArgument
  else if vesalMaxSglNum < src.length then .kInvalidArgument
  else .kOk

def sglBlock (data : Nat) (len : UInt32) : IOBlock := ⟨len.toNat, data, 0, none, len.toNat_lt⟩

variable (cfg : ChannelConfig)

/-- The request that the `SubmitAsyncRequest` for vectors makes. -/
def sglRequestArgs (dir : CodecDirection) (src : List Nat) (srcLen : List UInt32)
    (dst : Nat) (dstLen : UInt32) (ctx : Nat) : CodecRequestArgs where
  src := List.zipWith sglBlock src srcLen
  dst := sglBlock dst dstLen
  ctx := ctx
  codecAlgorithm := cfg.compAlgorithm
  compLevel := cfg.compLevel
  direction := dir

namespace CodecChannel

open EngineState

/-- `Poll`: the number returned, the results taken out, and those passed to `user_cb`. -/
def poll (cfg : ChannelConfig) (env : PollEnv) (maxNum : Nat) (st : EngineState) :
    Except EngineFault (Int × List CodecResult × List CodecResult × EngineState) :=
  match EngineState.poll cfg.toEngineConfig env maxNum st with
  | .error fault => .error fault
  | .ok (n, results, st) => .ok (n, results, if n > 0 ∧ cfg.userCb then results else [], st)

/-- A synchronous call that has returned: how often it polled, the results that it took out, and its
calls of `user_cb`. -/
structure SyncReturn where
  result : CodecResult
  pollNum : Nat
  popped : List CodecResult
  callbacks : List CodecResult
  engine : EngineState

/-- The loop at the end of the synchronous calls. `none` is a call that still polls. -/
def pollUntilReturned (cfg : ChannelConfig) : List PollEnv → Nat → CodecResult → EngineState →
    Except EngineFault (Option SyncReturn)
  | [], _, _, _ => .ok none
  | env :: envs, pollNum, res, st =>
    match poll cfg env 1 st with
    | .error fault => .error fault
    | .ok (n, results, callbacks, st) =>
      let res := results.headD res
      if n = 0 then pollUntilReturned cfg envs (pollNum + 1) res st
      else .ok (some ⟨res, pollNum + 1, results, callbacks, st⟩)

def noResult : CodecResult := ⟨0, 0, 0, 0, .kUnknown, 0⟩

/-- What a synchronous call meets at its submission and at each poll. -/
structure SyncEnv where
  submit : SubmitEnv
  polls : List PollEnv

def refused (status : StatusCode) (st : EngineState) : SyncReturn :=
  ⟨{ noResult with status := status }, 0, [], [], st⟩

def sglCall (dir : CodecDirection) (env : SyncEnv) (src : List Nat)
    (srcLen : List UInt32) (dst : Nat) (dstLen : UInt32) (st : EngineState) :
    Except EngineFault (Option SyncReturn) :=
  if validateSglArgs src srcLen ≠ .kOk then .ok (some (refused .kInvalidArgument st))
  else if st.closed then .error .nullPointer
  else
    match submitAsyncRequest cfg.toEngineConfig env.submit
      (sglRequestArgs cfg dir src srcLen dst dstLen 0) st with
    | .error fault => .error fault
    | .ok (status, st) =>
      if status ≠ .kOk then .ok (some (refused status st))
      else pollUntilReturned cfg env.polls 0 noResult st

def compressSGL : SyncEnv → List Nat → List UInt32 → Nat → UInt32 → EngineState →
    Except EngineFault (Option SyncReturn) :=
  sglCall cfg .kComp

def compress (env : SyncEnv) (src : Nat) (srcLen : UInt32) :
    Nat → UInt32 → EngineState → Except EngineFault (Option SyncReturn) :=
  compressSGL cfg env [src] [srcLen]

def decompressSGL : SyncEnv → List Nat → List UInt32 → Nat → UInt32 → EngineState →
    Except EngineFault (Option SyncReturn) :=
  sglCall cfg .kDecomp

def decompress (env : SyncEnv) (src : Nat) (srcLen : UInt32) :
    Nat → UInt32 → EngineState → Except EngineFault (Option SyncReturn) :=
  decompressSGL cfg env [src] [srcLen]

/-- `Submit`. Unlike the calls for vectors, it puts the status of the submission into the
result that it polls for. -/
def submit (cfg : ChannelConfig) (env : SyncEnv) (args : CodecRequestArgs) (st : EngineState) :
    Except EngineFault (Option SyncReturn) :=
  if st.closed then .error .nullPointer
  else
    match submitAsyncRequest cfg.toEngineConfig env.submit args st with
    | .error fault => .error fault
    | .ok (status, st) =>
      if status ≠ .kOk then .ok (some (refused status st))
      else pollUntilReturned cfg env.polls 0 { noResult with status := status } st

end CodecChannel

inductive SyncCall where
  | compress (src : Nat) (srcLen : UInt32) (dst : Nat) (dstLen : UInt32)
  | compressSGL (src : List Nat) (srcLen : List UInt32) (dst : Nat) (dstLen : UInt32)
  | decompress (src : Nat) (srcLen : UInt32) (dst : Nat) (dstLen : UInt32)
  | decompressSGL (src : List Nat) (srcLen : List UInt32) (dst : Nat) (dstLen : UInt32)
  | submit (args : CodecRequestArgs)

namespace SyncCall

def run (env : CodecChannel.SyncEnv) (st : EngineState) :
    SyncCall → Except EngineFault (Option CodecChannel.SyncReturn)
  | compress src srcLen dst dstLen => CodecChannel.compress cfg env src srcLen dst dstLen st
  | compressSGL src srcLen dst dstLen => CodecChannel.compressSGL cfg env src srcLen dst dstLen st
  | decompress src srcLen dst dstLen => CodecChannel.decompress cfg env src srcLen dst dstLen st
  | decompressSGL src srcLen dst dstLen => CodecChannel.decompressSGL cfg env src srcLen dst dstLen st
  | submit args => CodecChannel.submit cfg env args st

end SyncCall

end Vesal
