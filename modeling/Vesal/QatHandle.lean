import Vesal.QatPoller
import Vesal.QatUnitManager

/-!
# Handles of QAT units

`QatHandle` of `qat_handle.cc`: a handle grabs a unit and makes sessions on it, and `Reinit` takes
another unit when the hardware fails. Any number of handles share a `QatUnitManager`; a step of a
handle ends where it calls the manager, so that the calls of different handles interleave there.
What the driver answers is given with the step.
-/

namespace Vesal

structure QatSession where
  unit : Nat
  closed : Bool
deriving DecidableEq, Repr

structure QatHandle where
  channelOpts : PollerChannelOption
  unit : Option Nat
  discardedSessions : List QatSession
  discardedUnits : List Nat
  sessionCache : List (Nat × QatSession)
deriving DecidableEq, Repr

/-- A null unit is used, the manager faults, or the handle is not where the step starts. -/
inductive HandleFault where
  | nullUnit
  | manager (fault : UnitFault)
  | notHere
deriving DecidableEq, Repr

def packSessionKey (algo : CodecAlgorithm) (level : CodecCompLevel) : Nat :=
  algo.value.toNat ||| (level.value.toNat <<< 8)

namespace QatHandle

def new (channelOpts : PollerChannelOption) : QatHandle := ⟨channelOpts, none, [], [], []⟩

variable (handle : QatHandle)

/-- `GetOrCreateSession` with what `Init` of a new session returns: the status, the session and
the handle. -/
def getOrCreateSession (key : Nat) (sessR : StatusCode) :
    Except HandleFault (StatusCode × Option QatSession × QatHandle) :=
  match handle.sessionCache.lookup key with
  | some session => .ok (.kOk, some session, handle)
  | none =>
    match handle.unit with
    | none => .error .nullUnit
    | some unit =>
      if sessR ≠ .kOk then .ok (sessR, none, handle)
      else
        .ok (.kOk, some ⟨unit, false⟩,
          { handle with sessionCache := handle.sessionCache ++ [(key, ⟨unit, false⟩)] })

def defaultKey : Nat :=
  packSessionKey handle.channelOpts.compAlgorithm handle.channelOpts.compLevel

def tryCloseLoop (unit : Option Nat) (answers : Nat → StatusCode) : Nat → Nat → Except HandleFault StatusCode
  | 0, i => .ok (answers i)
  | cnt + 1, i =>
    if answers i = .kOk then .ok .kOk
    else
      -- `PollInstance` reads the unit.
      match unit with
      | none => .error .nullUnit
      | some _ => tryCloseLoop unit answers cnt (i + 1)

/-- `TryCloseSession` with the answers of the driver; a closed session is not closed again. -/
def tryCloseSession (unit : Option Nat) (session : QatSession) (answers : Nat → StatusCode) :
    Except HandleFault StatusCode :=
  if session.closed then .ok .kOk else tryCloseLoop unit answers 10 0

/-- The loop of `Uninit` over `session_cache_`, with the answers for each session: the status, and the
sessions. -/
def closeSessions (unit : Option Nat) (answers : Nat → Nat → StatusCode) :
    List (Nat × QatSession) → Nat → Except HandleFault (StatusCode × List (Nat × QatSession))
  | [], _ => .ok (.kOk, [])
  | kv :: sessions, i =>
    match tryCloseSession unit kv.2 (answers i) with
    | .error fault => .error fault
    | .ok status =>
      if status ≠ .kOk then .ok (status, kv :: sessions)
      else
        match closeSessions unit answers sessions (i + 1) with
        | .error fault => .error fault
        | .ok (status, rest) => .ok (status, (kv.1, { kv.2 with closed := true }) :: rest)

def discard (unit : Nat) : QatHandle :=
  { handle with
    unit := none
    discardedSessions := handle.discardedSessions ++ handle.sessionCache.map Prod.snd
    discardedUnits := handle.discardedUnits ++ [unit]
    sessionCache := [] }

def selection : QatUnitSelection :=
  { numaId := handle.channelOpts.allocationOption.nodeAffinity
    pfId := handle.channelOpts.allocationOption.deviceId }

end QatHandle

/-- What a handle did with a unit, and the end of an `Uninit` that succeeds. -/
inductive HandleAct where
  | grabbed (unit : Nat)
  | discarded (unit : Nat)
  | putBack (unit : Nat)
  | blackListed (unit : Nat)
  | cleared
deriving DecidableEq, Repr

/-- Where a handle is: outside a call, with what the last one returned; in an `Init` that calls
`Uninit`; in the loop of `Reinit` after some of its grabs; or in the last loop of `Uninit`, with
the units still to be given back and the status to return. -/
inductive HandlePoint where
  | returned (status : StatusCode)
  | failedInit (status : StatusCode)
  | reinit (grabs : Nat)
  | blackListing (remaining : List Nat) (status : StatusCode)
deriving DecidableEq, Repr

structure HandleState where
  handle : QatHandle
  point : HandlePoint
  history : List HandleAct
deriving DecidableEq, Repr

structure QatHandleRun where
  units : QatUnitRun
  states : Nat → HandleState

inductive HandleEvent where
  | init (h : Nat) (sessR : StatusCode)
  | uninit (h : Nat) (answers : Nat → Nat → StatusCode)
  | blackListNext (h : Nat)
  | reinit (h : Nat)
  | grabOther (h : Nat) (sessR : StatusCode)
  | submit (h : Nat) (key : Nat) (sessR : StatusCode)

namespace QatHandleRun

def init (driver : Except StatusCode (List QatInstance)) (channelOpts : Nat → PollerChannelOption) : QatHandleRun :=
  ⟨.init driver, fun h => ⟨.new (channelOpts h), .returned .kOk, []⟩⟩

variable (run : QatHandleRun) (h : Nat)

def set (units : QatUnitRun) (state : HandleState) : QatHandleRun :=
  ⟨units, Function.update run.states h state⟩

def initStep (sessR : StatusCode) : Except HandleFault QatHandleRun :=
  let st := run.states h
  match run.units.manager.grabAvailableUnit st.handle.selection with
  | .error fault => .error (.manager fault)
  | .ok (none, m) =>
    .ok (run.set h { run.units with manager := m } ⟨{ st.handle with unit := none }, .returned .kResourceBusy, st.history⟩)
  | .ok (some i, m) =>
    let handle := { st.handle with unit := some i }
    match handle.getOrCreateSession handle.defaultKey sessR with
    | .error fault => .error fault
    | .ok (status, _, handle) =>
      .ok (run.set h (run.units.grabbedUnit (some i, m))
        ⟨handle, if status = .kOk then .returned .kOk else .failedInit status, st.history ++ [.grabbed i]⟩)

/-- `Uninit` up to the end of `PutBackUnit`, with the status to return where a session does not close
and the one for the end. -/
def uninitStep (answers : Nat → Nat → StatusCode) (onError : StatusCode → StatusCode)
    (atEnd : StatusCode) : Except HandleFault QatHandleRun :=
  let st := run.states h
  match QatHandle.closeSessions st.handle.unit answers st.handle.sessionCache 0 with
  | .error fault => .error fault
  | .ok (status, sessions) =>
    if status ≠ .kOk then
      .ok (run.set h run.units
        ⟨{ st.handle with sessionCache := sessions }, .returned (onError status), st.history⟩)
    else
      let handle := { st.handle with unit := none, sessionCache := [], discardedSessions := [] }
      .ok (run.set h
        { run.units with
          manager := run.units.manager.putBackUnit st.handle.unit
          grabbed := run.units.grabbed \ st.handle.unit.toFinset }
        ⟨handle, .blackListing handle.discardedUnits atEnd, st.history ++ st.handle.unit.toList.map .putBack⟩)

def blackListStep (remaining : List Nat) (status : StatusCode) : QatHandleRun :=
  let st := run.states h
  match remaining with
  | [] =>
    run.set h run.units ⟨{ st.handle with discardedUnits := [] }, .returned status, st.history ++ [.cleared]⟩
  | i :: remaining =>
    run.set h
      ⟨run.units.manager.putBackToBlackList (some i), run.units.grabbed \ {i}, run.units.blackList ∪ {i}⟩
      ⟨st.handle, .blackListing remaining status, st.history ++ [.blackListed i]⟩

def grabOtherStep (grabs : Nat) (sessR : StatusCode) : Except HandleFault QatHandleRun :=
  let st := run.states h
  match run.units.manager.grabFromDiffDevice st.handle.discardedUnits with
  | (none, m) =>
    .ok (run.set h { run.units with manager := m } ⟨{ st.handle with unit := none }, .returned .kHardwareError, st.history⟩)
  | (some i, m) =>
    let handle := { st.handle with unit := some i }
    match handle.getOrCreateSession handle.defaultKey sessR with
    | .error fault => .error fault
    | .ok (status, _, handle) =>
      if status = .kOk then
        .ok (run.set h (run.units.grabbedUnit (some i, m)) ⟨handle, .returned .kOk, st.history ++ [.grabbed i]⟩)
      else
        -- The next pass overwrites the unit before anything reads it.
        .ok (run.set h (run.units.grabbedUnit (some i, m))
          ⟨{ handle with unit := none, discardedUnits := handle.discardedUnits ++ [i] }, .reinit (grabs + 1),
            st.history ++ [.grabbed i, .discarded i]⟩)

def submitSession (key : Nat) (sessR : StatusCode) :
    Except HandleFault (StatusCode × Option QatSession × QatHandle) :=
  match (run.states h).handle.getOrCreateSession key sessR with
  | .error fault => .error fault
  | .ok (status, session, handle) =>
    -- `unit_->GetInstanceHandle()`.
    if status = .kOk ∧ handle.unit = none then .error .nullUnit else .ok (status, session, handle)

def step : HandleEvent → Except HandleFault QatHandleRun
  | .init h sessR =>
    match (run.states h).point with
    | .returned _ => run.initStep h sessR
    | _ => .error .notHere
  | .uninit h answers =>
    match (run.states h).point with
    | .returned _ => run.uninitStep h answers id .kOk
    | .failedInit status => run.uninitStep h answers (fun _ => status) status
    | _ => .error .notHere
  | .blackListNext h =>
    match (run.states h).point with
    | .blackListing remaining status => .ok (run.blackListStep h remaining status)
    | _ => .error .notHere
  | .reinit h =>
    match (run.states h).point, (run.states h).handle.unit with
    | .returned _, some i =>
      .ok (run.set h run.units
        ⟨(run.states h).handle.discard i, .reinit 0, (run.states h).history ++ [.discarded i]⟩)
    -- The null unit would be among the excluded units.
    | .returned _, none => .error .nullUnit
    | _, _ => .error .notHere
  | .grabOther h sessR =>
    match (run.states h).point with
    | .reinit grabs => run.grabOtherStep h grabs sessR
    | _ => .error .notHere
  | .submit h key sessR =>
    match (run.states h).point with
    | .returned _ =>
      match run.submitSession h key sessR with
      | .error fault => .error fault
      | .ok (_, _, handle) => .ok (run.set h run.units { run.states h with handle := handle })
    | _ => .error .notHere

/-- `Reinit` is called only while the handle has a unit. -/
def reinitWithUnit : HandleEvent → Prop
  | .reinit h => (run.states h).handle.unit.isSome
  | _ => True

/-- In addition, `Init` is called only while the handle has no unit. -/
def initWithoutUnit : HandleEvent → Prop
  | .init h _ => (run.states h).handle.unit = none
  | .reinit h => (run.states h).handle.unit.isSome
  | _ => True

instance (run : QatHandleRun) (ev : HandleEvent) : Decidable (run.reinitWithUnit ev) :=
  match ev with
  | .reinit h => inferInstanceAs (Decidable ((run.states h).handle.unit.isSome = true))
  | .init _ _ | .uninit _ _ | .blackListNext _ | .grabOther _ _ | .submit _ _ _ => isTrue trivial

instance (run : QatHandleRun) (ev : HandleEvent) : Decidable (run.initWithoutUnit ev) :=
  match ev with
  | .init h _ => inferInstanceAs (Decidable ((run.states h).handle.unit = none))
  | .reinit h => inferInstanceAs (Decidable ((run.states h).handle.unit.isSome = true))
  | .uninit _ _ | .blackListNext _ | .grabOther _ _ | .submit _ _ _ => isTrue trivial

end QatHandleRun

end Vesal
