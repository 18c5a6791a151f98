import Vesal.Codec

/-!
# Workers of a poller

`GetOrNewWorkerInternal` and `ReturnWorkerInternal` of `qat_poller.cc`: the workers are kept in a
map with the option that they were asked for, and are shared by the options that the order of the
map does not tell apart.
-/

namespace Vesal

abbrev kMaxWorkerNumPerPoller : Nat := 128

def HaPolicy.value : HaPolicy → Int
  | .kHardware => 1
  | .kSoftware => 2
  | .kNone => 3
  | .kNum => 4

def CodecAlgorithm.value : CodecAlgorithm → Int
  | .kLz4 => 1
  | .kZstd => 2
  | .kDeflate => 3
  | .kZlib => 4
  | .kNum => 5

def CodecCompLevel.value : CodecCompLevel → Int
  | .kLevel1 => 1
  | .kLevel2 => 2
  | .kLevel3 => 3
  | .kLevel4 => 4
  | .kLevel5 => 5
  | .kLevel6 => 6
  | .kLevel7 => 7
  | .kLevel8 => 8
  | .kLevel9 => 9
  | .kLevel10 => 10
  | .kLevel11 => 11
  | .kLevel12 => 12
  | .kNum => 13

def CodecChecksumType.value : CodecChecksumType → Int
  | .kNone => 1
  | .kCrc32 => 2
  | .kNum => 3

structure ChannelAllocationOption where
  nodeAffinity : Int
  deviceId : Int
deriving DecidableEq, Repr

/-- The options that a worker is asked for with; `mode` and `engine_type` are read before. -/
structure PollerChannelOption extends CodecChannelOption where
  userCb : Nat
  compAlgorithm : CodecAlgorithm
  compLevel : CodecCompLevel
  allocationOption : ChannelAllocationOption
  swBackup : Bool
deriving DecidableEq, Repr

namespace PollerChannelOption

def tieLt : List Int → List Int → Bool
  | x :: xs, y :: ys => if x < y then true else if y < x then false else tieLt xs ys
  | _, _ => false

def tie (opt : PollerChannelOption) : List Int :=
  [opt.userCb, opt.haPolicy.value, opt.compAlgorithm.value, opt.compLevel.value, opt.checksumType.value,
    opt.compressedChecksum.toInt, opt.allocationOption.nodeAffinity, opt.swBackup.toInt, opt.timeoutMs]

def less (opt rhs : PollerChannelOption) : Bool := tieLt opt.tie rhs.tie

def equivalent (opt rhs : PollerChannelOption) : Bool := !less opt rhs && !less rhs opt

end PollerChannelOption

structure SharedWorker where
  addr : Nat
  opts : PollerChannelOption
deriving DecidableEq, Repr

structure QatPollerWorkerInfo where
  worker : SharedWorker
  refCnt : Nat
deriving DecidableEq, Repr

/-- The map of a poller, its entries as pairs of key and value. `objects` is how many workers were
created; each has an address of its own. -/
structure QatPoller where
  workers : List (PollerChannelOption × QatPollerWorkerInfo)
  objects : Nat
deriving DecidableEq, Repr

variable (p : QatPoller) (run : PollerRun) (option : PollerChannelOption)

namespace QatPoller

def getRefCnt : Nat := (p.workers.map fun kv => kv.2.refCnt).sum

def find (p : QatPoller) (option : PollerChannelOption) : Option (PollerChannelOption × QatPollerWorkerInfo) :=
  p.workers.find? fun kv => kv.1.equivalent option

def setRefCnt (refCnt : Nat) : QatPoller :=
  { p with workers := p.workers.map fun kv =>
      if kv.1.equivalent option then (kv.1, { kv.2 with refCnt := refCnt }) else kv }

def getOrNewWorkerInternal (createR : StatusCode) :
    Option SharedWorker × QatPoller :=
  if kMaxWorkerNumPerPoller ≤ p.getRefCnt then (none, p)
  else
    match p.find option with
    | some kv => (some kv.2.worker, p.setRefCnt option (kv.2.refCnt + 1))
    | none =>
      if createR ≠ .kOk then (none, { p with objects := p.objects + 1 })
      else
        let worker : SharedWorker := ⟨p.objects, option⟩
        (some worker, ⟨p.workers ++ [(option, ⟨worker, 1⟩)], p.objects + 1⟩)

/-- `ReturnWorkerInternal` with the worker that the pointer points to: the result, the worker that
`Uninit` is called on, and the map. -/
def returnWorkerInternal (worker : Option SharedWorker) : Bool × Option SharedWorker × QatPoller :=
  match worker with
  | none => (false, none, p)
  | some worker =>
    match p.find worker.opts with
    | none => (false, none, p)
    | some kv =>
      if kv.2.worker ≠ worker then (false, none, p)
      else if kv.2.refCnt - 1 = 0 then
        (true, some kv.2.worker, { p with workers := p.workers.filter fun kv => !kv.1.equivalent worker.opts })
      else (false, none, p.setRefCnt worker.opts (kv.2.refCnt - 1))

end QatPoller

/-- A poller with its history: the options it was asked for with the workers it gave, the workers
returned to it, and those that `Uninit` was called on. -/
structure PollerRun where
  poller : QatPoller
  gets : List (PollerChannelOption × SharedWorker)
  returns : List SharedWorker
  uninits : List SharedWorker
deriving DecidableEq, Repr

inductive PollerTask where
  | get (option : PollerChannelOption) (createR : StatusCode)
  | ret (worker : Option SharedWorker)
deriving DecidableEq, Repr

inductive PollerFault where
  | dangling
deriving DecidableEq, Repr

namespace PollerRun

def new : PollerRun := ⟨⟨[], 0⟩, [], [], []⟩

def get (createR : StatusCode) : PollerRun :=
  match run.poller.getOrNewWorkerInternal option createR with
  | (some worker, poller) => { run with poller := poller, gets := run.gets ++ [(option, worker)] }
  | (none, poller) => { run with poller := poller }

def ret (worker : Option SharedWorker) : PollerRun :=
  let out := run.poller.returnWorkerInternal worker
  { run with
    poller := out.2.2
    returns := run.returns ++ worker.toList
    uninits := run.uninits ++ out.2.1.toList }

def alive (worker : SharedWorker) : Bool := (run.poller.workers.map fun kv => kv.2.worker).contains worker

def step : PollerTask → Except PollerFault PollerRun
  | .get option createR => .ok (run.get option createR)
  | .ret worker => if worker.all run.alive then .ok (run.ret worker) else .error .dangling

end PollerRun

end Vesal
