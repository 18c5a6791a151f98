import Mathlib.Tactic

/-!
# Timers

`TimerManager` of `timer_manager.cc` as the list of its timers, head first. All timers of
one manager have the same timeout, so that the list is in the order of `AddTimer`. A
`TimeoutContext` is named by a number in place of its address.
-/

namespace Vesal

structure TimeoutContext (α : Type) where
  id : Nat
  onfiredTs : Nat
  timerArg : α
deriving DecidableEq, Repr

structure TimerManager (α : Type) where
  timeoutTs : Nat
  timers : List (TimeoutContext α)
  nextId : Nat

namespace TimerManager

variable {α : Type}

def new (timeoutTs : Nat) : TimerManager α := ⟨timeoutTs, [], 0⟩

variable (tm : TimerManager α) (now : Nat)

def addTimer (timerArg : α) : Nat × TimerManager α :=
  (tm.nextId,
    { tm with
      timers := tm.timers ++ [⟨tm.nextId, now + tm.timeoutTs, timerArg⟩]
      nextId := tm.nextId + 1 })

def removeTimer (id : Nat) : TimerManager α :=
  { tm with timers := tm.timers.eraseP (fun t => t.id == id) }

/-- The timers that `HandleTimeout` fires, up to the first that is not due. -/
def due (tm : TimerManager α) (now : Nat) : List (TimeoutContext α) :=
  tm.timers.takeWhile (fun t => decide (t.onfiredTs ≤ now))

/-- The manager after `HandleTimeout`. Its callback is called with the arguments of
`due`, in that order, and adds no timer to the same manager. -/
def handleTimeout : TimerManager α :=
  { tm with timers := tm.timers.dropWhile (fun t => decide (t.onfiredTs ≤ now)) }

def clearAndGetUserArg : List α × TimerManager α :=
  (tm.timers.map TimeoutContext.timerArg, { tm with timers := [] })

theorem due_append_handleTimeout :
    tm.due now ++ (tm.handleTimeout now).timers = tm.timers :=
  List.takeWhile_append_dropWhile

end TimerManager

end Vesal
