import Vesal.QatUnitManager
import Vesal.ReqRingQueue

/-!
# What a unit knows of its instance

`IntAtTheEnd` and `QueryInformation` of `qat_unit.cc`. The names are those that the driver gives,
up to their first null byte, and a status is its code.
-/

namespace Vesal

/-- The loop of `IntAtTheEnd` over the characters that are left, the last one first. It is `none`
where the number leaves an `int`, which is undefined. -/
def intAtTheEndLoop : List Char → Nat → Option Nat
  | [], num => some num
  | c :: cs, num =>
    if c.isDigit then
      let num := num * 10 + (c.toNat - '0'.toNat)
      if num < 2 ^ 31 then intAtTheEndLoop cs num else none
    else some num

def intAtTheEnd (s : List Char) : Option Nat :=
  -- the `size_t` of `s.length() - 1` becomes an `int`
  let i := toInt32 ((s.length + 2 ^ 64 - 1) % 2 ^ 64)
  intAtTheEndLoop (s.take (i + 1).toNat).reverse 0

structure CpaInstanceInfo2 where
  partName : List Char
  instName : List Char
  busAddress : BitVec 16
  requiresPhysicallyContiguousMemory : Bool
  nodeAffinity : Nat
  isPolled : Bool

structure QatUnitAttr where
  partName : List Char
  instanceId : List Char
  deviceId : Nat
  functionId : Nat
  instId : Nat
  numaHint : Int
  isPolled : Bool
  isPhysContiguousMemRequired : Bool

def kSupportedQatModelName : List (List Char) := ["4xxx", "4xxxvf", "200xx", "200xxvf"].map String.toList

def isModelSupported (name : List Char) : Bool := kSupportedQatModelName.any (· == name)

def queryInformation (st : CpaStatus) (info2 : CpaInstanceInfo2) (attr : QatUnitAttr) :
    Option (StatusCode × QatUnitAttr) :=
  if st ≠ .success then some (cpaStatusToVesalStatusCode st, attr)
  else
    let partName := info2.partName.takeWhile (· != ' ')
    if !isModelSupported partName then some (.kNotSupported, { attr with partName := partName })
    else do
      let instId ← intAtTheEnd info2.instName
      let functionId := (info2.busAddress &&& 0xff).toNat
      return (.kOk, {
        partName := partName
        instanceId := Nat.toDigits 10 functionId ++ '.' :: info2.instName
        deviceId := (info2.busAddress >>> 8).toNat
        functionId := functionId
        instId := instId
        numaHint := toInt32 info2.nodeAffinity
        isPolled := info2.isPolled
        isPhysContiguousMemRequired := info2.requiresPhysicallyContiguousMemory })

def QatUnitAttr.unit (attr : QatUnitAttr) : QatUnit :=
  ⟨attr.numaHint, attr.deviceId, attr.functionId, attr.instId, 0, false⟩

end Vesal
