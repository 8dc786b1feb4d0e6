import TelemetryAgent.Notice

/-!
# Timers with threads

A periodic timer that runs its callback on a thread of its own while it is armed. A start spawns
a thread and keeps its handle; a stop gives up the handle, tells the thread to end and waits for
it. A thread whose callback panics ends by itself, and so does one whose next deadline is beyond
the clock. The timer learns of that only when it joins the thread, and until then it counts as
running.
-/
namespace TelemetryAgent

/-- A thread delivers expiries while it is alive. -/
inductive ThreadPhase
  | alive | panicked | ended
deriving DecidableEq, Repr

structure TimerThread where
  period : Interval
  /-- The next deadline. -/
  due : Interval
  phase : ThreadPhase := .alive
deriving DecidableEq, Repr

structure ThreadTimer where
  name : String
  /-- Every thread the timer has spawned, in order. -/
  threads : List TimerThread := []
  /-- The thread that the next stop joins. -/
  handle : Option Nat := none
deriving DecidableEq, Repr

namespace ThreadTimer

/-- The name a task or timer is shown by: trailing NULs only end it. -/
def displayName (name : String) : String :=
  String.ofList (Text.trimEnd (· == Char.ofNat 0) name.toList)

def create (name : String) : ThreadTimer := { name := displayName name }

/-- The last second of the clock. It is past its first second whenever a timer is started, so that
a period of this many seconds is beyond it. -/
def clockLimit : Nat := Nat.pow 2 63 - 1

/-- The time that is a period later, unless it is beyond the clock. -/
def deadline? (time period : Interval) : Option Interval :=
  let due := Interval.ofParts (time.seconds + period.seconds) (time.nanos + period.nanos)
  if due.seconds ≤ clockLimit then some due else none

def isRunning (t : ThreadTimer) : Bool := t.handle.isSome

/-- Tells a thread to end and waits for it; a thread that has panicked is not alive to be told. -/
def join (thread : Nat) (threads : List TimerThread) : Outcome × List TimerThread :=
  match threads[thread]? with
  | none => (.ok (), threads)
  | some w =>
    match w.phase with
    | .alive => (.ok (), threads.set thread { w with phase := .ended })
    | .panicked => (.error .stopFailed, threads)
    | .ended => (.ok (), threads)

/-- Afterwards the timer is idle, also if its callback had panicked. -/
def stop (t : ThreadTimer) : Outcome × ThreadTimer :=
  match t.handle with
  | none => (.ok (), t)
  | some thread =>
    let (r, threads) := join thread t.threads
    (r, { t with threads, handle := none })

/-- Ends the thread of an earlier start first; a start that fails leaves the timer idle. -/
def start (now period : Interval) (t : ThreadTimer) : Outcome × ThreadTimer × List Notice :=
  match t.stop with
  | (.error f, t) => (.error f, t, [])
  | (.ok (), t) =>
    if period.isZero then (.error .startFailed, t, [])
    else
      match deadline? now period with
      | none => (.error .startFailed, t, [.periodOutOfRange t.name period])
      | some due =>
        (.ok (),
          { t with threads := t.threads ++ [{ period, due }], handle := some t.threads.length }, [])

end ThreadTimer

/-- The thread after its callback has run. -/
def TimerThread.expire (panics : Bool) (w : TimerThread) : TimerThread :=
  if panics then { w with phase := .panicked }
  else
    match ThreadTimer.deadline? w.due w.period with
    | some due => { w with due }
    | none => { w with phase := .ended }

namespace ThreadTimer

/-- The deadline of a thread has come. Tells whether the callback runs; one that panics ends the
thread. -/
def expire (thread : Nat) (panics : Bool) (t : ThreadTimer) : Bool × ThreadTimer :=
  match t.threads[thread]? with
  | none => (false, t)
  | some w =>
    match w.phase with
    | .alive => (true, { t with threads := t.threads.set thread (w.expire panics) })
    | _ => (false, t)

/-- A timer that goes away is stopped first. -/
def release (t : ThreadTimer) : ThreadTimer × List Notice :=
  match t.stop with
  | (.error _, t) => (t, [.timerPanicked t.name])
  | (.ok (), t) => (t, [])

end ThreadTimer
end TelemetryAgent
