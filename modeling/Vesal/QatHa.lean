import Vesal.Codec

/-!
# When to fall back to another device

`QatHa` of `qat_ha.cc`: some errors trigger the fallback at once, some only when too many
of them happen within a sliding window of time.
-/

namespace Vesal

inductive QatHaErrorLevel where
  | kNotHandle | kAccumulate | kImmediately
deriving DecidableEq, Repr

def judgeHaErrorLevel : StatusCode → QatHaErrorLevel
  | .kOk | .kDropped | .kInvalidArgument | .kNotSupported | .kOverflow | .kBadData
  | .kPermanentError => .kNotHandle
  | .kResourceBusy | .kTimeout | .kSliceHang | .kShouldRetry => .kAccumulate
  | .kHardwareError | .kChannelError | .kUnknown => .kImmediately

/-- The two windows of `SlidingTimeWindow`, and the conversion of clock ticks. -/
structure HaWindow where
  minCountingTimeWindowUs : Nat
  slidingWindowUs : Nat
  durationToUs : Nat → Nat

variable (w : HaWindow)

def HaWindow.needRecord (errorTs : List Nat) (now : Nat) : Bool :=
  match errorTs.getLast? with
  | none => true
  | some last => decide (w.minCountingTimeWindowUs < w.durationToUs (now - last))

def HaWindow.clearExpiredErrors (errorTs : List Nat) (now : Nat) : List Nat :=
  errorTs.dropWhile (fun ts => decide (w.slidingWindowUs < w.durationToUs (now - ts)))

/-- `RecordErrorAndCheckIsSafe`. The number of errors that triggers is a flag that may
change between two calls. -/
def HaWindow.recordErrorAndCheckIsSafe (triggerErrorNum now : Nat)
    (errorTs : List Nat) : Bool × List Nat :=
  let errorTs :=
    if w.needRecord errorTs now then w.clearExpiredErrors (errorTs ++ [now]) now else errorTs
  (decide (errorTs.length < triggerErrorNum), errorTs)

def HaWindow.shouldFallback (triggerErrorNum now : Nat) (statusCode : StatusCode)
    (errorTs : List Nat) : Bool × List Nat :=
  match judgeHaErrorLevel statusCode with
  | .kNotHandle => (false, errorTs)
  | .kImmediately => (true, [])
  | .kAccumulate =>
    match w.recordErrorAndCheckIsSafe triggerErrorNum now errorTs with
    | (true, errorTs) => (false, errorTs)
    | (false, _) => (true, [])

def isHaEnabled (haPolicy : HaPolicy) : Bool := haPolicy == .kHardware

end Vesal
