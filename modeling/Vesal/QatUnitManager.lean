import Mathlib.Data.List.MinMax
import Vesal.Codec

/-!
# The QAT units and their manager

`QatUnitManager` of `qat_unit_manager.cc`. A unit is named by its place in `all_units_`, which
stands for its address; no unit is removed before `Uninit`. The thread name that a grabbed unit
carries for the logs is left out.
-/

namespace Vesal

/-- What a caller asks of a unit. A negative number asks nothing. -/
structure QatUnitSelection where
  numaId : Int := -1
  pfId : Int := -1
  vfId : Int := -1
  instId : Int := -1
deriving DecidableEq, Repr

structure QatUnit where
  numaId : Int
  deviceId : Int
  functionId : Int
  instId : Int
  refCnt : Int
  blacklisted : Bool
deriving DecidableEq, Repr

namespace QatUnit

variable (unit : QatUnit)

def isInUse : Bool := decide (0 < unit.refCnt)

def usable : Bool := !unit.blacklisted && !unit.isInUse

def incRefCnt : QatUnit := { unit with refCnt := unit.refCnt + 1 }

def decRefCnt : QatUnit := { unit with refCnt := unit.refCnt - 1 }

def markBlacklist : QatUnit := { unit with blacklisted := true }

end QatUnit

/-- An instance of the driver: what is known of its unit after `Start`, and the result of `Start`. -/
structure QatInstance where
  numaId : Int
  deviceId : Int
  functionId : Int
  instId : Int
  startR : StatusCode
deriving DecidableEq, Repr

def QatInstance.unit (inst : QatInstance) : QatUnit :=
  ⟨inst.numaId, inst.deviceId, inst.functionId, inst.instId, 0, false⟩

/-- `find` gave the end of `pf_in_use_cnt_`, and it was read. -/
inductive UnitFault where
  | endOfCounts
deriving DecidableEq, Repr

structure QatUnitManager where
  allUnits : List QatUnit
  pfInUseCnt : Int → Option Int

namespace QatUnitManager

def initLoop : List QatInstance → QatUnitManager → Nat → QatUnitManager × Nat
  | [], m, succNum => (m, succNum)
  | inst :: instances, m, succNum =>
    if inst.startR ≠ .kOk then
      initLoop instances { m with allUnits := m.allUnits ++ [inst.unit.markBlacklist] } succNum
    else
      initLoop instances
        ⟨m.allUnits ++ [inst.unit], Function.update m.pfInUseCnt inst.deviceId (some 0)⟩ (succNum + 1)

def init (driver : Except StatusCode (List QatInstance)) : StatusCode × QatUnitManager :=
  match driver with
  | .error status => (status, ⟨[], fun _ => none⟩)
  | .ok [] => (.kHardwareError, ⟨[], fun _ => none⟩)
  | .ok instances =>
    let (m, succNum) := initLoop instances ⟨[], fun _ => none⟩ 0
    (if 0 < succNum then .kOk else .kResourceBusy, m)

variable (m : QatUnitManager) (selection : QatUnitSelection)

def fitSelection (unit : QatUnit) : Bool :=
  (selection.numaId < 0 || selection.numaId == unit.numaId) &&
    (selection.pfId < 0 || selection.pfId == unit.deviceId) &&
    (selection.vfId < 0 || selection.vfId == unit.functionId) &&
    (selection.instId < 0 || selection.instId == unit.instId)

/-- `ret` and `pf_id_cnt` after a unit that may be taken: the less busy one comes first. -/
def lessBusy (ret : Option (Nat × Int)) (i : Nat) (cnt : Int) : Option (Nat × Int) :=
  match ret with
  | none => some (i, cnt)
  | some (_, pfIdCnt) => if cnt < pfIdCnt then some (i, cnt) else ret

def grabAvailableLoop (m : QatUnitManager) (selection : QatUnitSelection) :
    List QatUnit → Nat → Option (Nat × Int) → Except UnitFault (Option (Nat × Int))
  | [], _, ret => .ok ret
  | unit :: units, i, ret =>
    if unit.usable && fitSelection selection unit then
      match m.pfInUseCnt unit.deviceId with
      | none => .error .endOfCounts
      | some cnt => grabAvailableLoop m selection units (i + 1) (lessBusy ret i cnt)
    else grabAvailableLoop m selection units (i + 1) ret

/-- `pf_in_use_cnt_[device]`, which is 0 where there was no key. -/
def cntOf (cnts : Int → Option Int) (device : Int) : Int := (cnts device).getD 0

def change (i : Nat) (f : QatUnit → QatUnit) (delta : Int) : QatUnitManager :=
  match m.allUnits[i]? with
  | none => m
  | some unit =>
    ⟨m.allUnits.set i (f unit),
      Function.update m.pfInUseCnt unit.deviceId (some (cntOf m.pfInUseCnt unit.deviceId + delta))⟩

def take : Option (Nat × Int) → Option Nat × QatUnitManager
  | none => (none, m)
  | some (i, _) => (some i, m.change i QatUnit.incRefCnt 1)

def grabAvailableUnit :
    Except UnitFault (Option Nat × QatUnitManager) :=
  match grabAvailableLoop m selection m.allUnits 0 none with
  | .error fault => .error fault
  | .ok ret => .ok (m.take ret)

def onExcluded (excludedUnits : List Nat) (unit : QatUnit) : Bool :=
  excludedUnits.any fun u => (m.allUnits[u]?).map QatUnit.deviceId == some unit.deviceId

/-- The loop of `GrabFromDiffDevice`; `operator[]` makes an entry of `pf_in_use_cnt_` where there
is none. -/
def grabFromDiffLoop (m : QatUnitManager) (excludedUnits : List Nat) :
    List QatUnit → Nat → Option (Nat × Int) → (Int → Option Int) → Option (Nat × Int) × (Int → Option Int)
  | [], _, ret, cnts => (ret, cnts)
  | unit :: units, i, ret, cnts =>
    if unit.usable && !m.onExcluded excludedUnits unit then
      grabFromDiffLoop m excludedUnits units (i + 1) (lessBusy ret i (cntOf cnts unit.deviceId))
        (Function.update cnts unit.deviceId (some (cntOf cnts unit.deviceId)))
    else grabFromDiffLoop m excludedUnits units (i + 1) ret cnts

def grabFromDiffDevice (excludedUnits : List Nat) : Option Nat × QatUnitManager :=
  let (ret, cnts) := grabFromDiffLoop m excludedUnits m.allUnits 0 none m.pfInUseCnt
  take { m with pfInUseCnt := cnts } ret

def putBackUnit : Option Nat → QatUnitManager
  | none => m
  | some i => m.change i QatUnit.decRefCnt (-1)

def putBackToBlackList : Option Nat → QatUnitManager
  | none => m
  | some i => m.change i (fun unit => unit.decRefCnt.markBlacklist) (-1)

def lookupUnits : List Nat :=
  (m.allUnits.zipIdx.filter fun p => fitSelection selection p.1).map Prod.snd

end QatUnitManager

/-- A manager with its history: the units grabbed, and those whose start failed or that were put into
the black list. -/
structure QatUnitRun where
  manager : QatUnitManager
  grabbed : Finset Nat
  blackList : Finset Nat

inductive QatUnitCall where
  | grabAvailableUnit (selection : QatUnitSelection)
  | grabFromDiffDevice (excludedUnits : List Nat)
  | putBackUnit (unit : Option Nat)
  | putBackToBlackList (unit : Option Nat)
deriving DecidableEq, Repr

namespace QatUnitRun

def failedStarts (driver : Except StatusCode (List QatInstance)) : Finset Nat :=
  match driver with
  | .error _ => ∅
  | .ok instances => ((instances.zipIdx.filter fun p => p.1.startR != .kOk).map Prod.snd).toFinset

def init (driver : Except StatusCode (List QatInstance)) : QatUnitRun :=
  ⟨(QatUnitManager.init driver).2, ∅, failedStarts driver⟩

variable (run : QatUnitRun)

def grabbedUnit (result : Option Nat × QatUnitManager) : QatUnitRun :=
  { run with manager := result.2, grabbed := run.grabbed ∪ result.1.toFinset }

def step : QatUnitCall → Except UnitFault QatUnitRun
  | .grabAvailableUnit selection =>
    match run.manager.grabAvailableUnit selection with
    | .error fault => .error fault
    | .ok result => .ok (run.grabbedUnit result)
  | .grabFromDiffDevice excludedUnits => .ok (run.grabbedUnit (run.manager.grabFromDiffDevice excludedUnits))
  | .putBackUnit unit =>
    .ok { run with manager := run.manager.putBackUnit unit, grabbed := run.grabbed \ unit.toFinset }
  | .putBackToBlackList unit =>
    .ok ⟨run.manager.putBackToBlackList unit, run.grabbed \ unit.toFinset, run.blackList ∪ unit.toFinset⟩

def onlyGrabbed : QatUnitCall → Prop
  | .putBackUnit (some i) | .putBackToBlackList (some i) => i ∈ run.grabbed
  | _ => True

instance (run : QatUnitRun) (call : QatUnitCall) : Decidable (run.onlyGrabbed call) :=
  match call with
  | .putBackUnit (some i) | .putBackToBlackList (some i) => inferInstanceAs (Decidable (i ∈ run.grabbed))
  | .grabAvailableUnit _ | .grabFromDiffDevice _ | .putBackUnit none | .putBackToBlackList none => isTrue trivial

end QatUnitRun

end Vesal
